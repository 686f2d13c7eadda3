import Mathlib.Data.Nat.Init
import Mathlib.Tactic.Basic

/-!
# While loops

A loop is its body, which answers `none` where the loop is left.  `whileLoop` runs it with a
bound on the number of turns; `Ends` says that some bound is enough.  `Ends.invariant` is the rule
for what a loop keeps, `ends_of_measure` the rule that it ends, `not_ends_of_progress` the one that
it does not.
-/

set_option autoImplicit false

namespace TradingEdge.Library

variable {σ : Type}

/-- Run the body until it answers `none`; `none` if the bound is reached before. -/
def whileLoop (body : σ → Option σ) : ℕ → σ → Option σ
  | 0, _ => none
  | fuel + 1, s =>
    match body s with
    | none => some s
    | some s' => whileLoop body fuel s'

/-- The loop ends, in the state `t`. -/
def Ends (body : σ → Option σ) (s t : σ) : Prop := ∃ fuel, whileLoop body fuel s = some t

variable {body : σ → Option σ}

/-- A loop whose condition fails is left at once. -/
theorem whileLoop_of_none {s : σ} (h : body s = none) (fuel : ℕ) :
    whileLoop body (fuel + 1) s = some s := by
  rw [whileLoop, h]

/-- Otherwise it takes a turn. -/
theorem whileLoop_of_some {s s' : σ} (h : body s = some s') (fuel : ℕ) :
    whileLoop body (fuel + 1) s = whileLoop body fuel s' := by
  rw [whileLoop, h]

/-- A larger bound changes nothing. -/
theorem whileLoop_mono {fuel fuel' : ℕ} (hle : fuel ≤ fuel') {s t : σ}
    (h : whileLoop body fuel s = some t) : whileLoop body fuel' s = some t := by
  induction fuel generalizing fuel' s with
  | zero => cases h
  | succ fuel ih =>
    obtain ⟨more, rfl⟩ := Nat.exists_eq_add_of_le' hle
    rw [← Nat.add_assoc]
    cases hbody : body s with
    | none =>
      rw [whileLoop_of_none hbody] at h ⊢
      exact h
    | some s' =>
      rw [whileLoop_of_some hbody] at h ⊢
      exact ih (Nat.le_add_left fuel more) h

/-- A loop that does not go on ends where it is. -/
theorem Ends.of_none {s : σ} (h : body s = none) : Ends body s s := ⟨1, whileLoop_of_none h 0⟩

/-- A loop that goes on ends where it ends from there. -/
theorem Ends.of_some {s s' t : σ} (h : body s = some s') (hends : Ends body s' t) :
    Ends body s t := by
  obtain ⟨fuel, hfuel⟩ := hends
  exact ⟨fuel + 1, (whileLoop_of_some h fuel).trans hfuel⟩

/-- A loop that ends does so under every bound that is large enough. -/
theorem Ends.exists_enough {s t : σ} (h : Ends body s t) :
    ∃ enough, ∀ fuel, enough ≤ fuel → whileLoop body fuel s = some t := by
  obtain ⟨enough, henough⟩ := h
  exact ⟨enough, fun fuel hle => whileLoop_mono hle henough⟩

/-- A loop ends in one state at most. -/
theorem Ends.unique {s t t' : σ} (h : Ends body s t) (h' : Ends body s t') : t = t' := by
  obtain ⟨fuel, hfuel⟩ := h
  obtain ⟨fuel', hfuel'⟩ := h'
  have ht := whileLoop_mono (Nat.le_max_left fuel fuel') hfuel
  have ht' := whileLoop_mono (Nat.le_max_right fuel fuel') hfuel'
  exact Option.some.inj (ht.symm.trans ht')

/-- **Induction over the turns of a loop that ends.** -/
theorem Ends.induction {motive : σ → Prop} {s t : σ} (h : Ends body s t)
    (hexit : body t = none → motive t)
    (hturn : ∀ s s', body s = some s' → Ends body s' t → motive s' → motive s) : motive s := by
  obtain ⟨fuel, hfuel⟩ := h
  induction fuel generalizing s with
  | zero => cases hfuel
  | succ fuel ih =>
    cases hbody : body s with
    | none =>
      rw [whileLoop_of_none hbody] at hfuel
      obtain rfl := Option.some.inj hfuel
      exact hexit hbody
    | some s' =>
      rw [whileLoop_of_some hbody] at hfuel
      exact hturn s s' hbody ⟨fuel, hfuel⟩ (ih hfuel)

/-- **Partial correctness.** What every turn keeps holds where the loop ends, and there its
condition fails. -/
theorem Ends.invariant {I : σ → Prop} {s t : σ} (h : Ends body s t) (hs : I s)
    (hkeep : ∀ s s', I s → body s = some s' → I s') : I t ∧ body t = none := by
  refine h.induction (motive := fun s => I s → I t ∧ body t = none) ?_ ?_ hs
  · intro hbody hs
    exact ⟨hs, hbody⟩
  · intro s s' hbody _ ih hs
    exact ih (hkeep s s' hs hbody)

/-- **Termination.** A loop ends if its turns keep an invariant and lower a measure. -/
theorem ends_of_measure {I : σ → Prop} (measure : σ → ℕ)
    (hturn : ∀ s s', I s → body s = some s' → I s' ∧ measure s' < measure s) {s : σ} (hs : I s) :
    ∃ t, Ends body s t := by
  induction hn : measure s using Nat.strong_induction_on generalizing s with
  | _ n ih =>
    cases hbody : body s with
    | none => exact ⟨s, Ends.of_none hbody⟩
    | some s' =>
      obtain ⟨hs', hlt⟩ := hturn s s' hs hbody
      obtain ⟨t, ht⟩ := ih (measure s') (hn ▸ hlt) hs' rfl
      exact ⟨t, ht.of_some hbody⟩

/-- **Total correctness.** -/
theorem ends_with {I : σ → Prop} (measure : σ → ℕ)
    (hturn : ∀ s s', I s → body s = some s' → I s' ∧ measure s' < measure s) {s : σ} (hs : I s) :
    ∃ t, Ends body s t ∧ I t ∧ body t = none := by
  obtain ⟨t, ht⟩ := ends_of_measure measure hturn hs
  exact ⟨t, ht, ht.invariant hs fun s s' h hbody => (hturn s s' h hbody).1⟩

/-- **Divergence.** A loop that can take another turn from every state it comes to does not
end. -/
theorem not_ends_of_progress {I : σ → Prop} {s : σ} (hs : I s)
    (hprogress : ∀ s, I s → ∃ s', body s = some s' ∧ I s') : ¬∃ t, Ends body s t := by
  rintro ⟨t, hends⟩
  have hkeep : ∀ s s', I s → body s = some s' → I s' := by
    intro s s' hI hbody
    obtain ⟨s'', hbody', hI'⟩ := hprogress s hI
    rw [hbody] at hbody'
    exact Option.some.inj hbody' ▸ hI'
  obtain ⟨hI, hexit⟩ := hends.invariant hs hkeep
  obtain ⟨s', hbody, -⟩ := hprogress t hI
  rw [hexit] at hbody
  cases hbody

end TradingEdge.Library
