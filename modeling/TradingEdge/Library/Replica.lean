import TradingEdge.Library.Machine

/-!
# A replica of a stored value, kept by notifications

Writers put a value in a store and then publish it, in two steps.  A reader loads the store
once, subscribes, and from then on takes over every value it receives.  A value that is published
while the reader is not subscribed is lost, and so are those on their way when the subscription
breaks.

A replica is `Coherent` if, with no write left to publish, it is going to hold the stored value
once it has received what is on its way.  `coherent_step_iff` says which steps keep it so.
-/

set_option autoImplicit false

namespace TradingEdge.Library

/-- How far the reader has come: it has not loaded the store, it is not subscribed, or it is, with
values on their way. -/
inductive Subscription (α : Type) where
  | starting
  | down
  | up (queue : List α)

/-- A published value goes to a subscribed reader and to nobody else. -/
def Subscription.deliver {α : Type} (a : α) : Subscription α → Subscription α
  | .up queue => .up (queue ++ [a])
  | s => s

/-- The store, the values written and not yet published, and the reader. -/
structure Replica (α : Type) where
  stored : α
  pending : List α
  cached : α
  link : Subscription α

/-- A step of a writer or of the reader. -/
inductive ReplicaLabel (α : Type) where
  | writes (a : α)
  | publishes (i : ℕ)
  | restarts (a : α)
  | loads (ok : Bool)
  | subscribes
  | disconnects
  | receives

namespace Replica

variable {α : Type}

/-- One step.  A load that fails leaves the reader with what it has. -/
def step (r : Replica α) (l : ReplicaLabel α) : Replica α :=
  match l with
  | .writes a => { r with stored := a, pending := r.pending ++ [a] }
  | .publishes i =>
    match r.pending[i]? with
    | none => r
    | some a => { r with pending := r.pending.eraseIdx i, link := r.link.deliver a }
  | .restarts a => { r with cached := a, link := .starting }
  | .loads ok =>
    match r.link with
    | .starting => { r with cached := if ok then r.stored else r.cached, link := .down }
    | _ => r
  | .subscribes =>
    match r.link with
    | .down => { r with link := .up [] }
    | _ => r
  | .disconnects =>
    match r.link with
    | .up _ => { r with link := .down }
    | _ => r
  | .receives =>
    match r.link with
    | .up (a :: queue) => { r with cached := a, link := .up queue }
    | _ => r

/-- What the reader is going to hold once it has received what is on its way. -/
def upcoming (r : Replica α) : α :=
  match r.link with
  | .up queue => queue.getLast?.getD r.cached
  | _ => r.cached

/-- A reader that has not loaded the store holds what it was started with. -/
def StartsWith (initial : α) (r : Replica α) : Prop := r.link = .starting → r.cached = initial

/-- A step keeps what a restart starts with. -/
theorem startsWith_step (initial : α) (r : Replica α) (l : ReplicaLabel α)
    (hl : ∀ a, l = .restarts a → a = initial) (h : r.StartsWith initial) :
    (r.step l).StartsWith initial := by
  intro hlink
  cases l with
  | writes a => exact h hlink
  | publishes i =>
    unfold step at hlink ⊢
    dsimp only at hlink ⊢
    split at hlink
    · exact h hlink
    · refine h ?_
      cases hbefore : r.link with
      | starting => rfl
      | _ => simp [hbefore, Subscription.deliver] at hlink
  | restarts a => exact hl a rfl
  | loads ok =>
    unfold step at hlink ⊢
    cases hbefore : r.link with
    | _ => simp [hbefore] at hlink
  | subscribes =>
    unfold step at hlink ⊢
    cases hbefore : r.link with
    | starting => exact h hbefore
    | _ => simp [hbefore] at hlink
  | disconnects =>
    unfold step at hlink ⊢
    cases hbefore : r.link with
    | starting => exact h hbefore
    | _ => simp [hbefore] at hlink
  | receives =>
    unfold step at hlink ⊢
    cases hbefore : r.link with
    | starting => exact h hbefore
    | down => simp [hbefore] at hlink
    | up queue =>
      cases queue with
      | nil => simp [hbefore] at hlink
      | cons a queue => simp [hbefore] at hlink

/-- With no write left to publish, the reader is going to hold the stored value. -/
def Coherent (r : Replica α) : Prop :=
  r.pending = [] → r.link ≠ .starting → r.upcoming = r.stored

/-- The step does not take the last word from the reader: the last write to be published is the
one that stands in the store, and reaches the reader or tells it nothing new; and a failed load or
a broken subscription, after all writes are published, finds the reader up to date. -/
def Keeps (r : Replica α) (l : ReplicaLabel α) : Prop :=
  match l with
  | .publishes i => ∀ a, r.pending = [a] → i = 0 →
    match r.link with
    | .starting => True
    | .down => r.cached = r.stored
    | .up _ => a = r.stored
  | .loads ok => ok = false → r.link = .starting → r.pending = [] → r.cached = r.stored
  | .disconnects => ∀ queue, r.link = .up queue → r.pending = [] → r.cached = r.stored
  | _ => True

/-- The publication of a write. -/
theorem coherent_publishes_iff (r : Replica α) (i : ℕ) (h : r.Coherent) :
    (r.step (.publishes i)).Coherent ↔ r.Keeps (.publishes i) := by
  unfold step Keeps
  dsimp only
  cases hget : r.pending[i]? with
  | none =>
    refine iff_of_true h ?_
    rintro a ha rfl
    rw [ha] at hget
    cases hget
  | some a =>
    obtain ⟨hi, -⟩ := List.getElem?_eq_some_iff.mp hget
    by_cases honly : r.pending.length = 1
    · -- the last write left
      obtain ⟨b, hb⟩ := List.length_eq_one_iff.mp honly
      obtain rfl : i = 0 := by omega
      rw [hb] at hget
      cases hget
      unfold Coherent upcoming Subscription.deliver
      cases hlink : r.link with
      | starting => simp [hb]
      | down => simp [hb]
      | up queue => simp [hb]
    · have hmore : r.pending.eraseIdx i ≠ [] := by
        intro heq
        have hlength := congrArg List.length heq
        rw [List.length_eraseIdx_of_lt hi, List.length_nil] at hlength
        omega
      refine iff_of_true (fun hnone => absurd hnone hmore) ?_
      intro b hb
      rw [hb] at honly
      exact absurd rfl honly

/-- **One step keeps the replica coherent exactly when it leaves the last word with the
reader.** -/
theorem coherent_step_iff (r : Replica α) (l : ReplicaLabel α) (h : r.Coherent) :
    (r.step l).Coherent ↔ r.Keeps l := by
  cases l with
  | writes a => exact iff_of_true (fun hnone => absurd hnone (by simp [step])) trivial
  | publishes i => exact coherent_publishes_iff r i h
  | restarts a => exact iff_of_true (fun _ hlink => absurd rfl hlink) trivial
  | loads ok =>
    unfold step Keeps
    dsimp only
    cases hlink : r.link with
    | starting => cases ok <;> simp [Coherent, upcoming]
    | down => exact iff_of_true h (by rintro - ⟨⟩)
    | up queue => exact iff_of_true h (by rintro - ⟨⟩)
  | subscribes =>
    unfold step Keeps
    dsimp only
    cases hlink : r.link with
    | down =>
      refine iff_of_true (fun hnone _ => ?_) trivial
      have hsame := h hnone (by rw [hlink]; simp)
      rwa [upcoming, hlink] at hsame
    | starting => exact iff_of_true h trivial
    | up queue => exact iff_of_true h trivial
  | disconnects =>
    unfold step Keeps
    dsimp only
    cases hlink : r.link with
    | up queue => simp [Coherent, upcoming]
    | starting => exact iff_of_true h (by rintro _ ⟨⟩)
    | down => exact iff_of_true h (by rintro _ ⟨⟩)
  | receives =>
    unfold step Keeps
    dsimp only
    cases hlink : r.link with
    | up queue =>
      cases queue with
      | nil => exact iff_of_true h trivial
      | cons a queue =>
        refine iff_of_true (fun hnone _ => ?_) trivial
        have hsame := h hnone (by rw [hlink]; simp)
        rw [upcoming, hlink] at hsame
        dsimp only at hsame ⊢
        rw [← hsame, upcoming, List.getLast?_cons]
        rfl
    | starting => exact iff_of_true h trivial
    | down => exact iff_of_true h trivial

/-- A coherent replica with nothing under way holds the stored value. -/
theorem Coherent.cached_eq {r : Replica α} (h : r.Coherent) (hpending : r.pending = [])
    (hlink : r.link = .up []) : r.cached = r.stored := by
  have hsame := h hpending (by rw [hlink]; simp)
  rwa [upcoming, hlink] at hsame

end Replica

end TradingEdge.Library
