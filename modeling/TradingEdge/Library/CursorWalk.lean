import TradingEdge.Library.WhileLoop

/-!
# Walks with a cursor

A loop that fetches page after page: each cursor has its page and, unless the loop is left there,
a next cursor.  `Visits` says which cursors the loop comes to.  If a measure of the cursor falls,
the loop ends, and what it has deposited are the pages of the cursors it came to
(`walk_ends`).
-/

set_option autoImplicit false

namespace TradingEdge.Library

variable {ι ρ τ : Type} {next : ι → Option ι}

/-- The cursors a walk comes to. -/
inductive Visits (next : ι → Option ι) : Option ι → ι → Prop
  | here (c : ι) : Visits next (some c) c
  | later {c c' : ι} (h : Visits next (next c) c') : Visits next (some c) c'

/-- One turn of the loop: deposit the page of the cursor and go on to the next. -/
def walkStep (next : ι → Option ι) (page : ι → List ρ) (deposit : τ → List ρ → τ) :
    Option ι × τ → Option (Option ι × τ)
  | (none, _) => none
  | (some c, t) => some (next c, deposit t (page c))

/-- A walk visits its cursor and what it visits from the next one. -/
theorem visits_some_iff {c c' : ι} :
    Visits next (some c) c' ↔ c' = c ∨ Visits next (next c) c' := by
  constructor
  · intro h
    cases h with
    | here => exact Or.inl rfl
    | later h => exact Or.inr h
  · rintro (rfl | h)
    · exact Visits.here c'
    · exact Visits.later h

/-- **What every turn keeps** holds of all cursors. -/
theorem Visits.invariant {I : ι → Prop} {start : Option ι} {c : ι} (h : Visits next start c)
    (hstart : ∀ c, start = some c → I c) (hkeep : ∀ c c', I c → next c = some c' → I c') :
    I c := by
  induction h with
  | here c => exact hstart c rfl
  | later _ ih => exact ih fun c' hnext => hkeep _ c' (hstart _ rfl) hnext

/-- A walk goes on from any cursor it comes to. -/
theorem Visits.trans {start : Option ι} {a b : ι} (ha : Visits next start a)
    (hb : Visits next (some a) b) : Visits next start b := by
  induction ha with
  | here => exact hb
  | later _ ih => exact Visits.later (ih hb)

/-- Of two cursors it comes to, one is behind the other. -/
theorem Visits.linear {start : Option ι} {a b : ι} (ha : Visits next start a)
    (hb : Visits next start b) : Visits next (some a) b ∨ Visits next (some b) a := by
  induction ha with
  | here => exact Or.inl hb
  | later h ih =>
    rcases visits_some_iff.mp hb with rfl | hb
    · exact Or.inr (Visits.later h)
    · exact ih hb

section Guard

variable {goesOn : ι → Prop} [DecidablePred goesOn]

/-- The test at the head of a loop. -/
def guarded (goesOn : ι → Prop) [DecidablePred goesOn] (c : ι) : Option ι :=
  if goesOn c then some c else none

/-- **The cursors of a loop with a test at its head** are the values its cursor takes that pass the
test.  The values include the one it is left at. -/
theorem visits_guarded_iff {f : ι → ι} {start c : ι} :
    Visits (fun c => guarded goesOn (f c)) (guarded goesOn start) c ↔
      Visits (fun c => (guarded goesOn c).map f) (some start) c ∧ goesOn c := by
  constructor
  · intro h
    generalize hs : guarded goesOn start = s at h
    induction h generalizing start with
    | here c =>
      unfold guarded at hs
      split at hs
      · rename_i hpass
        obtain rfl := Option.some.inj hs
        exact ⟨Visits.here start, hpass⟩
      · cases hs
    | later _ ih =>
      unfold guarded at hs
      split at hs
      · rename_i hpass
        obtain rfl := Option.some.inj hs
        obtain ⟨hvisit, hc⟩ := ih rfl
        refine ⟨Visits.later ?_, hc⟩
        rw [guarded, if_pos hpass]
        exact hvisit
      · cases hs
  · rintro ⟨hvisit, hc⟩
    generalize hs : some start = s at hvisit
    induction hvisit generalizing start with
    | here c =>
      obtain rfl := Option.some.inj hs
      rw [guarded, if_pos hc]
      exact Visits.here start
    | later hrest ih =>
      obtain rfl := Option.some.inj hs
      by_cases hpass : goesOn start
      · rw [guarded, if_pos hpass] at ih ⊢
        exact Visits.later (ih hc rfl)
      · rw [guarded, if_neg hpass] at hrest
        cases hrest

end Guard

/-- **The loop ends**, and has deposited the pages of the cursors it came to. -/
theorem walk_ends (page : ι → List ρ) (deposit : τ → List ρ → τ) (measure : ι → ℕ)
    {I : ι → Prop}
    (hnext : ∀ c c', I c → next c = some c' → I c' ∧ measure c' < measure c)
    {start : Option ι} (hstart : ∀ c, start = some c → I c) (t : τ) :
    ∃ pages : List (List ρ),
      Ends (walkStep next page deposit) (start, t) (none, pages.foldl deposit t) ∧
      ∀ r, r ∈ pages.flatten ↔ ∃ c, Visits next start c ∧ r ∈ page c := by
  -- once for a start at some cursor, by the measure of that cursor
  have hsome : ∀ c t, I c → ∃ pages : List (List ρ),
      Ends (walkStep next page deposit) (some c, t) (none, pages.foldl deposit t) ∧
      ∀ r, r ∈ pages.flatten ↔ ∃ c', Visits next (some c) c' ∧ r ∈ page c' := by
    intro c
    induction hn : measure c using Nat.strong_induction_on generalizing c with
    | _ n ih =>
      intro t hc
      have hturn : walkStep next page deposit (some c, t) = some (next c, deposit t (page c)) := rfl
      cases hnextc : next c with
      | none =>
        rw [hnextc] at hturn
        refine ⟨[page c], (Ends.of_none rfl).of_some hturn, ?_⟩
        intro r
        simp only [List.flatten_cons, List.flatten_nil, List.append_nil, visits_some_iff, hnextc]
        constructor
        · exact fun hr => ⟨c, Or.inl rfl, hr⟩
        · rintro ⟨c', rfl | hvisit, hr⟩
          · exact hr
          · cases hvisit
      | some c' =>
        rw [hnextc] at hturn
        obtain ⟨hc', hlt⟩ := hnext c c' hc hnextc
        obtain ⟨pages, hends, hmem⟩ :=
          ih (measure c') (hn ▸ hlt) c' rfl (deposit t (page c)) hc'
        refine ⟨page c :: pages, hends.of_some hturn, ?_⟩
        intro r
        rw [List.flatten_cons, List.mem_append, hmem]
        constructor
        · rintro (hr | ⟨c'', hvisit, hr⟩)
          · exact ⟨c, Visits.here c, hr⟩
          · exact ⟨c'', Visits.later (hnextc ▸ hvisit), hr⟩
        · rintro ⟨c'', hvisit, hr⟩
          rcases visits_some_iff.mp hvisit with rfl | hvisit
          · exact Or.inl hr
          · exact Or.inr ⟨c'', hnextc ▸ hvisit, hr⟩
  cases start with
  | none =>
    refine ⟨[], Ends.of_none rfl, ?_⟩
    intro r
    constructor
    · intro hr
      cases hr
    · rintro ⟨c, hvisit, -⟩
      cases hvisit
  | some c => exact hsome c t (hstart c rfl)

end TradingEdge.Library
