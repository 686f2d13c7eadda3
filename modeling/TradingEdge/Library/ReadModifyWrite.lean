import Mathlib.Logic.Function.Basic
import Mathlib.Data.List.Basic

/-!
# A value that tasks read, change and write back

Each task reads the value, works for a while with what it read, and writes back what the change
makes of that.  Nothing keeps the tasks apart.  `log` lists the changes that were written, in
order.

A cell is `Current` if its value is the result of all written changes, and `Behind` if one has
been lost.  The size counts the changes a value has taken in.  A write that finds the value its task
has read keeps a cell current (`Current.step`), any other write loses a change
(`Current.step_behind`), and what is lost stays lost (`Behind.step`).
-/

set_option autoImplicit false

namespace TradingEdge.Library

/-- The value, what each task holds of it, and the changes written. -/
structure Cell (ι V X : Type) where
  value : V
  held : ι → Option V
  log : List X

/-- A step of a task. -/
inductive CellOp (ι X : Type) where
  | reads (i : ι)
  | writes (i : ι) (x : X)
  | drops (i : ι)

namespace Cell

variable {ι V X : Type} [DecidableEq ι]

/-- One step; a task that holds nothing has nothing to write. -/
def step (f : V → X → V) (c : Cell ι V X) : CellOp ι X → Cell ι V X
  | .reads i => { c with held := Function.update c.held i (some c.value) }
  | .writes i x =>
    match c.held i with
    | none => c
    | some v =>
      { value := f v x
        held := Function.update c.held i none
        log := c.log ++ [x] }
  | .drops i => { c with held := Function.update c.held i none }

/-- The write finds the value its task has read. -/
def Finds (c : Cell ι V X) : CellOp ι X → Prop
  | .writes i _ => ∀ v, c.held i = some v → v = c.value
  | _ => True

variable (f : V → X → V) (size : V → ℕ) (v₀ : V)

/-- The value is the result of all written changes, and no task holds a later one. -/
structure Current (c : Cell ι V X) : Prop where
  value_eq : c.value = c.log.foldl f v₀
  size_eq : size c.value = size v₀ + c.log.length
  held : ∀ i v, c.held i = some v → v = c.value ∨ size v < size v₀ + c.log.length

/-- The value lacks a written change, and so does what every task holds. -/
structure Behind (c : Cell ι V X) : Prop where
  size_lt : size c.value < size v₀ + c.log.length
  held : ∀ i v, c.held i = some v → size v < size v₀ + c.log.length

omit [DecidableEq ι] in
/-- A cell that nobody has touched. -/
theorem current_init : Current f size v₀ (⟨v₀, fun _ => none, []⟩ : Cell ι V X) :=
  ⟨rfl, rfl, fun i v h => by cases h⟩

/-- What tasks hold after one of them has let go. -/
theorem held_update_none {P : V → Prop} {held : ι → Option V} (i : ι)
    (h : ∀ j v, held j = some v → P v) :
    ∀ j v, Function.update held i none j = some v → P v := by
  intro j v hv
  by_cases hj : j = i
  · subst hj
    rw [Function.update_self] at hv
    cases hv
  · rw [Function.update_of_ne hj] at hv
    exact h j v hv

variable {f size v₀}

/-- A step that writes nothing, or finds what its task has read, keeps a cell current. -/
theorem Current.step (hsize : ∀ v x, size (f v x) = size v + 1) {c : Cell ι V X}
    (h : Current f size v₀ c) (op : CellOp ι X) (hfinds : c.Finds op) :
    Current f size v₀ (c.step f op) := by
  cases op with
  | reads i =>
    refine ⟨h.value_eq, h.size_eq, ?_⟩
    intro j v hv
    simp only [Cell.step] at hv
    by_cases hj : j = i
    · subst hj
      rw [Function.update_self] at hv
      exact Or.inl (Option.some.inj hv).symm
    · rw [Function.update_of_ne hj] at hv
      exact h.held j v hv
  | drops i => exact ⟨h.value_eq, h.size_eq, held_update_none i h.held⟩
  | writes i x =>
    cases hheld : c.held i with
    | none => rwa [Cell.step, hheld]
    | some v =>
      have hv : v = c.value := hfinds v hheld
      subst hv
      simp only [Cell.step, hheld]
      refine ⟨?_, ?_, held_update_none i ?_⟩
      · rw [List.foldl_append, ← h.value_eq]
        rfl
      · simp only [hsize, List.length_append, List.length_singleton]
        have heq := h.size_eq
        omega
      · intro j w hw
        right
        simp only [List.length_append, List.length_singleton]
        have heq := h.size_eq
        rcases h.held j w hw with rfl | hlt <;> omega

/-- A write that does not find what its task has read loses a change. -/
theorem Current.step_behind (hsize : ∀ v x, size (f v x) = size v + 1) {c : Cell ι V X}
    (h : Current f size v₀ c) (op : CellOp ι X) (hfinds : ¬c.Finds op) :
    Behind size v₀ (c.step f op) := by
  cases op with
  | reads i => exact absurd trivial hfinds
  | drops i => exact absurd trivial hfinds
  | writes i x =>
    simp only [Finds, not_forall] at hfinds
    obtain ⟨v, hheld, hne⟩ := hfinds
    have hlt := (h.held i v hheld).resolve_left hne
    simp only [Cell.step, hheld]
    refine ⟨?_, held_update_none i ?_⟩
    · simp only [hsize, List.length_append, List.length_singleton]
      omega
    · intro j w hw
      simp only [List.length_append, List.length_singleton]
      have heq := h.size_eq
      rcases h.held j w hw with rfl | hlt' <;> omega

/-- What is lost stays lost. -/
theorem Behind.step (hsize : ∀ v x, size (f v x) = size v + 1) {c : Cell ι V X}
    (h : Behind size v₀ c) (op : CellOp ι X) : Behind size v₀ (c.step f op) := by
  cases op with
  | reads i =>
    refine ⟨h.size_lt, ?_⟩
    intro j v hv
    simp only [Cell.step] at hv
    by_cases hj : j = i
    · subst hj
      rw [Function.update_self] at hv
      obtain rfl := Option.some.inj hv
      exact h.size_lt
    · rw [Function.update_of_ne hj] at hv
      exact h.held j v hv
  | drops i => exact ⟨h.size_lt, held_update_none i h.held⟩
  | writes i x =>
    cases hheld : c.held i with
    | none => rwa [Cell.step, hheld]
    | some v =>
      have hlt := h.held i v hheld
      simp only [Cell.step, hheld]
      refine ⟨?_, held_update_none i ?_⟩
      · simp only [hsize, List.length_append, List.length_singleton]
        omega
      · intro j w hw
        have hlt' := h.held j w hw
        simp only [List.length_append, List.length_singleton]
        omega

end Cell

end TradingEdge.Library
