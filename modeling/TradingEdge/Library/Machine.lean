import Mathlib.Data.List.Basic
import Mathlib.Data.List.Induction

/-!
# Machines that emit events

A `Machine` takes a label to a next state and the events the step emits.  A run is a
list of labels: `final` is the state it ends in, `emissions` lists the events step by
step, `trace` all of them in order.

Assumptions about a run are assumptions about its labels (`Obeys`): a condition on each
label given the labels before it.  A condition on the state before each step is the
special case `Along`.  `invariant` is the induction rule over runs, `twin_final` the one over
two runs at once, and `forall_trace_iff` turns a statement about every event of a run into one
about every step of it.
-/

set_option autoImplicit false

namespace TradingEdge.Library

/-- A transition function with the events each step emits. -/
structure Machine (State Label Event : Type) where
  step : State → Label → State × List Event

/-- Every label of the list meets `C`, which may look at the labels before it. -/
def Obeys {Label : Type} (C : List Label → Label → Prop) (ls : List Label) : Prop :=
  ∀ pre l post, ls = pre ++ l :: post → C pre l

namespace Obeys

variable {Label : Type} {C D : List Label → Label → Prop}

/-- No steps obey every condition. -/
theorem nil : Obeys C [] := by
  intro pre l post h
  simp at h

/-- A list obeys a condition exactly when its prefix does and its last label meets it. -/
theorem concat_iff (ls : List Label) (l : Label) :
    Obeys C (ls ++ [l]) ↔ Obeys C ls ∧ C ls l := by
  constructor
  · intro h
    refine ⟨fun pre l' post heq => h pre l' (post ++ [l]) (by simp [heq]), h ls l [] rfl⟩
  · rintro ⟨hls, hl⟩ pre l' post heq
    rcases List.eq_nil_or_concat post with rfl | ⟨post', l'', rfl⟩
    · obtain ⟨rfl, rfl⟩ := List.append_singleton_inj.mp heq
      exact hl
    · rw [List.concat_eq_append, ← List.cons_append, ← List.append_assoc] at heq
      obtain ⟨hls', -⟩ := List.append_singleton_inj.mp heq
      exact hls pre l' post' hls'

/-- A list obeys a condition exactly when its first label meets it and the rest obeys what
the condition says after that label. -/
theorem cons_iff (l : Label) (ls : List Label) :
    Obeys C (l :: ls) ↔ C [] l ∧ Obeys (fun pre => C (l :: pre)) ls := by
  constructor
  · intro h
    exact ⟨h [] l ls rfl, fun pre l' post heq => h (l :: pre) l' post (by simp [heq])⟩
  · rintro ⟨hl, hls⟩ pre l' post heq
    cases pre with
    | nil =>
      obtain ⟨rfl, rfl⟩ := List.cons_eq_cons.mp heq
      exact hl
    | cons l'' pre =>
      obtain ⟨rfl, htail⟩ := List.cons_eq_cons.mp heq
      exact hls pre l' post htail

/-- What comes after a prefix obeys what the condition says after that prefix. -/
theorem append_iff (ls rest : List Label) :
    Obeys C (ls ++ rest) ↔ Obeys C ls ∧ Obeys (fun pre => C (ls ++ pre)) rest := by
  induction ls generalizing C with
  | nil => simp [nil]
  | cons l ls ih =>
    rw [List.cons_append, cons_iff, cons_iff, ih, and_assoc]
    rfl

/-- Steps that obey a condition obey a weaker one. -/
theorem mono (h : ∀ pre l, C pre l → D pre l) {ls : List Label} (hC : Obeys C ls) :
    Obeys D ls :=
  fun pre l post heq => h pre l (hC pre l post heq)

/-- Steps obey two conditions if they obey each. -/
theorem and_iff (ls : List Label) :
    Obeys (fun pre l => C pre l ∧ D pre l) ls ↔ Obeys C ls ∧ Obeys D ls :=
  ⟨fun h => ⟨fun pre l post e => (h pre l post e).1, fun pre l post e => (h pre l post e).2⟩,
    fun h pre l post e => ⟨h.1 pre l post e, h.2 pre l post e⟩⟩

/-- What a list obeys, each of its prefixes obeys. -/
theorem of_append {ls rest : List Label} (h : Obeys C (ls ++ rest)) : Obeys C ls := by
  intro pre l post heq
  exact h pre l (post ++ rest) (by simp [heq])

end Obeys

namespace Machine

variable {State Label Event : Type} (m : Machine State Label Event)

/-- The state after one step. -/
def next (s : State) (l : Label) : State := (m.step s l).1

/-- The events of one step. -/
def emits (s : State) (l : Label) : List Event := (m.step s l).2

/-- The state a run ends in. -/
def final (s : State) (ls : List Label) : State := ls.foldl m.next s

/-- The events of a run, one list for each step. -/
def emissions : State → List Label → List (List Event)
  | _, [] => []
  | s, l :: ls => m.emits s l :: emissions (m.next s l) ls

/-- The events of a run in order. -/
def trace (s : State) (ls : List Label) : List Event := (m.emissions s ls).flatten

/-- Without steps the state stays. -/
@[simp] theorem final_nil (s : State) : m.final s [] = s := rfl

/-- Without steps nothing is emitted. -/
@[simp] theorem emissions_nil (s : State) : m.emissions s [] = [] := rfl

/-- Without steps the trace is empty. -/
@[simp] theorem trace_nil (s : State) : m.trace s [] = [] := rfl

/-- A run continued goes on from where it was. -/
theorem final_append (s : State) (ls rest : List Label) :
    m.final s (ls ++ rest) = m.final (m.final s ls) rest :=
  List.foldl_append

/-- The emissions of a run continued. -/
theorem emissions_append (s : State) (ls rest : List Label) :
    m.emissions s (ls ++ rest) = m.emissions s ls ++ m.emissions (m.final s ls) rest := by
  induction ls generalizing s with
  | nil => rfl
  | cons l ls ih => simp [emissions, ih, final]

/-- The trace of a run continued. -/
theorem trace_append (s : State) (ls rest : List Label) :
    m.trace s (ls ++ rest) = m.trace s ls ++ m.trace (m.final s ls) rest := by
  simp [trace, emissions_append]

/-- The state after one more step. -/
@[simp] theorem final_concat (s : State) (ls : List Label) (l : Label) :
    m.final s (ls ++ [l]) = m.next (m.final s ls) l :=
  m.final_append s ls [l]

/-- The trace after one more step. -/
@[simp] theorem trace_concat (s : State) (ls : List Label) (l : Label) :
    m.trace s (ls ++ [l]) = m.trace s ls ++ m.emits (m.final s ls) l := by
  rw [trace_append]
  simp [trace, emissions]

/-- A run, by its first step. -/
theorem final_cons (s : State) (l : Label) (ls : List Label) :
    m.final s (l :: ls) = m.final (m.next s l) ls := rfl

/-- A trace, by its first step. -/
theorem trace_cons (s : State) (l : Label) (ls : List Label) :
    m.trace s (l :: ls) = m.emits s l ++ m.trace (m.next s l) ls := rfl

/-- **Causality of a run.** What happens in the first `n` steps is determined by the
first `n` labels. -/
theorem emissions_take (s : State) (ls : List Label) (n : ℕ) :
    (m.emissions s ls).take n = m.emissions s (ls.take n) := by
  induction ls generalizing s n with
  | nil => simp
  | cons l ls ih =>
    cases n with
    | zero => simp
    | succ n => simp [emissions, ih]

/-- A condition on the state before each step of the run and its label. -/
def Along (P : State → Label → Prop) (s : State) (ls : List Label) : Prop :=
  Obeys (fun pre l => P (m.final s pre) l) ls

/-- A condition along a run, by its first step. -/
theorem along_cons_iff (P : State → Label → Prop) (s : State) (l : Label) (ls : List Label) :
    m.Along P s (l :: ls) ↔ P s l ∧ m.Along P (m.next s l) ls :=
  Obeys.cons_iff l ls

/-- Some step of the run satisfies `P`, a condition on the state before it and its label. -/
def Sometime (P : State → Label → Prop) (s : State) (ls : List Label) : Prop :=
  ∃ pre l post, ls = pre ++ l :: post ∧ P (m.final s pre) l

/-- What never happens fails at every step. -/
theorem not_sometime_iff (P : State → Label → Prop) (s : State) (ls : List Label) :
    ¬m.Sometime P s ls ↔ m.Along (fun t l => ¬P t l) s ls := by
  constructor
  · intro h pre l post heq hP
    exact h ⟨pre, l, post, heq, hP⟩
  · rintro h ⟨pre, l, post, heq, hP⟩
    exact h pre l post heq hP

/-- Without steps nothing happens. -/
theorem not_sometime_nil (P : State → Label → Prop) (s : State) : ¬m.Sometime P s [] := by
  rintro ⟨pre, l, post, heq, -⟩
  simp at heq

/-- A longer run has one more step to satisfy `P` at. -/
theorem sometime_concat_iff (P : State → Label → Prop) (s : State) (ls : List Label)
    (l : Label) :
    m.Sometime P s (ls ++ [l]) ↔ m.Sometime P s ls ∨ P (m.final s ls) l := by
  rw [← not_iff_not, not_or, not_sometime_iff, not_sometime_iff]
  exact Obeys.concat_iff ls l

/-- **Induction over runs.** `I` relates the labels taken so far, the state they lead to
and the trace they leave; each step whose label meets `C` carries it over. -/
theorem invariant (C : List Label → Label → Prop)
    (I : List Label → State → List Event → Prop) (s : State) (h0 : I [] s [])
    (hstep : ∀ pre l, C pre l → I pre (m.final s pre) (m.trace s pre) →
      I (pre ++ [l]) (m.next (m.final s pre) l)
        (m.trace s pre ++ m.emits (m.final s pre) l))
    (ls : List Label) (hls : Obeys C ls) : I ls (m.final s ls) (m.trace s ls) := by
  induction ls using List.reverseRecOn with
  | nil => exact h0
  | append_singleton pre l ih =>
    obtain ⟨hpre, hl⟩ := (Obeys.concat_iff pre l).mp hls
    simpa using hstep pre l hl (ih hpre)

/-- **Exact conditions.** If, from a state of the run that satisfies `P`, a step keeps `P` exactly
when it meets `C`, then every state of the run satisfies `P` exactly when `C` holds along it. -/
theorem forall_final_iff (P : State → Prop) (C : State → Label → Prop) (s : State) (h0 : P s)
    (hstep : ∀ pre l, P (m.final s pre) → (P (m.next (m.final s pre) l) ↔ C (m.final s pre) l))
    (ls : List Label) :
    (∀ pre post, ls = pre ++ post → P (m.final s pre)) ↔ m.Along C s ls := by
  constructor
  · intro h pre l post heq
    have hafter := h (pre ++ [l]) post (by rw [heq, List.append_assoc]; rfl)
    rw [final_concat] at hafter
    exact (hstep pre l (h pre (l :: post) heq)).mp hafter
  · rintro h pre post rfl
    have hpre : m.Along C s pre := Obeys.of_append h
    clear h
    induction pre using List.reverseRecOn with
    | nil => exact h0
    | append_singleton pre l ih =>
      obtain ⟨hbefore, hl⟩ := (Obeys.concat_iff pre l).mp hpre
      rw [final_concat]
      exact (hstep pre l (ih hbefore)).mpr hl

/-- Every event of a run satisfies `Q` exactly when each step emits only such events. -/
theorem forall_trace_iff (Q : Event → Prop) (s : State) (ls : List Label) :
    (∀ e ∈ m.trace s ls, Q e) ↔ m.Along (fun t l => ∀ e ∈ m.emits t l, Q e) s ls := by
  induction ls using List.reverseRecOn with
  | nil => simp [Along, Obeys.nil]
  | append_singleton pre l ih =>
    rw [Along, Obeys.concat_iff, trace_concat, List.forall_mem_append, ih]
    rfl

/-- An event of a run is emitted by one of its steps. -/
theorem mem_trace_iff (e : Event) (s : State) (ls : List Label) :
    e ∈ m.trace s ls ↔ ∃ pre l post, ls = pre ++ l :: post ∧ e ∈ m.emits (m.final s pre) l := by
  have h := m.forall_trace_iff (fun e' => e' ≠ e) s ls
  constructor
  · intro he
    by_contra hcon
    push Not at hcon
    refine h.mpr (fun pre l post heq e' he' hee => ?_) e he rfl
    exact hcon pre l post heq (hee ▸ he')
  · rintro ⟨pre, l, post, heq, he⟩
    by_contra hcon
    exact h.mp (fun e' he' hee => hcon (hee ▸ he')) pre l post heq e he rfl

/-- **Twin runs.** If a step that meets `C` keeps two states related, two runs over the same labels
end in related states while the first of them meets `C`. -/
theorem twin_final (Twin : State → State → Prop) (C : State → Label → Prop)
    (hnext : ∀ s t l, Twin s t → C s l → Twin (m.next s l) (m.next t l))
    (s t : State) (h : Twin s t) (ls : List Label) (hls : m.Along C s ls) :
    Twin (m.final s ls) (m.final t ls) := by
  induction ls generalizing s t with
  | nil => exact h
  | cons l ls ih =>
    obtain ⟨hl, hrest⟩ := (m.along_cons_iff C s l ls).mp hls
    exact ih _ _ (hnext s t l h hl) hrest

/-- **Lockstep.** Two machines emit the same at every step of a run exactly when `P` holds
along it, if `P` says when two related states emit the same, and states stay related while
they do. -/
theorem emissions_eq_iff {State' : Type} (m' : Machine State' Label Event)
    (Sim : State → State' → Prop) (P : State → Label → Prop)
    (hemits : ∀ s s' l, Sim s s' → (m.emits s l = m'.emits s' l ↔ P s l))
    (hnext : ∀ s s' l, Sim s s' → m.emits s l = m'.emits s' l →
      Sim (m.next s l) (m'.next s' l))
    (s : State) (s' : State') (h : Sim s s') (ls : List Label) :
    m.emissions s ls = m'.emissions s' ls ↔ m.Along P s ls := by
  induction ls generalizing s s' with
  | nil => simp [Along, Obeys.nil]
  | cons l ls ih =>
    rw [along_cons_iff, emissions, emissions, List.cons_eq_cons, ← hemits s s' l h]
    refine and_congr_right fun heq => ?_
    exact ih _ _ (hnext s s' l h heq)

section Observing

variable {Event' : Type} (f : State → Label → List Event')

/-- The machine with other events: what an observer notes down at a step, from the state before it
and its label. -/
def observing : Machine State Label Event' := ⟨fun s l => (m.next s l, f s l)⟩

/-- An observed machine emits what is observed. -/
@[simp] theorem emits_observing (s : State) (l : Label) : (m.observing f).emits s l = f s l := rfl

/-- Observing a machine does not change its states. -/
@[simp] theorem final_observing (s : State) (ls : List Label) :
    (m.observing f).final s ls = m.final s ls := rfl

end Observing

end Machine

end TradingEdge.Library
