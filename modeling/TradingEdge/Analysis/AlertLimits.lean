import Mathlib.Tactic.Linarith
import TradingEdge.Program.AlertClient

/-!
# What the alert client lets through

The client decides by what it kept: the last time of each kind, a list of answer times that it
prunes when it looks at it, and the end of a cooldown.  `TracksAlerts` says that this is as good as the
whole history, so a call sends its message exactly when the history allows it
(`send_posts_iff`).  Messages on their way are not counted, so the limit of twenty a minute is
missed by as many as may be on their way at once (`deliveries_per_minute`).
-/

set_option autoImplicit false

namespace TradingEdge.Analysis

open TradingEdge.Library TradingEdge.Program

/-- The times a step reads off the clock. -/
def AlertLabel.times : AlertLabel → List ℚ
  | .send _ dedupeAt circuitAt => [dedupeAt, circuitAt]
  | .answered _ now => [now]

/-- The clock does not go back, and it shows a minute at least. -/
def AlertClockForward (ls : List AlertLabel) : Prop :=
  (dedupeSeconds :: ls.flatMap AlertLabel.times).Pairwise (· ≤ ·)

/-- When Telegram took a message. -/
def AlertNote.deliveredAt : AlertNote → Option ℚ
  | .delivered now => some now
  | _ => none

/-- The times at which Telegram took messages. -/
def deliveries (notes : List AlertNote) : List ℚ := notes.filterMap AlertNote.deliveredAt

/-- The deliveries of a run continued. -/
theorem deliveries_append (notes notes' : List AlertNote) :
    deliveries (notes ++ notes') = deliveries notes ++ deliveries notes' :=
  List.filterMap_append

/-! ## The clock -/

/-- A clock that does not go back has not gone back before the last step. -/
theorem AlertClockForward.of_concat {ls : List AlertLabel} {l : AlertLabel}
    (h : AlertClockForward (ls ++ [l])) : AlertClockForward ls := by
  unfold AlertClockForward at h ⊢
  rw [List.flatMap_append, ← List.cons_append] at h
  exact (List.pairwise_append.mp h).1

/-- The clock shows a minute at least and nothing later than at the next step. -/
theorem AlertClockForward.le_next {ls : List AlertLabel} {l : AlertLabel}
    (h : AlertClockForward (ls ++ [l])) (t : ℚ)
    (ht : t ∈ dedupeSeconds :: ls.flatMap AlertLabel.times) (t' : ℚ)
    (ht' : t' ∈ AlertLabel.times l) : t ≤ t' := by
  unfold AlertClockForward at h
  rw [List.flatMap_append, ← List.cons_append] at h
  refine (List.pairwise_append.mp h).2.2 t ht t' ?_
  simpa using ht'

/-! ## What the client kept and what happened -/

/-- What the client keeps of what has happened, `cut` being the last time its window was
pruned. -/
structure TracksAlerts (c : TelegramClient) (notes : List AlertNote) (cut : ℚ) : Prop where
  seen_mem : ∀ kind t, c.lastSeen.get? kind = some t → AlertNote.seen kind t ∈ notes
  seen_last : ∀ kind t, AlertNote.seen kind t ∈ notes →
    ∃ last, c.lastSeen.get? kind = some last ∧ t ≤ last
  suppressed_mem : c.suppressedUntil = 0 ∨
    ∃ t, AlertNote.tripped t ∈ notes ∧ c.suppressedUntil = t + circuitBreakerCooldownS
  suppressed_last : ∀ t, AlertNote.tripped t ∈ notes →
    t + circuitBreakerCooldownS ≤ c.suppressedUntil
  sent : Prunes circuitBreakerWindowS cut c.sentWindow (deliveries notes)

/-- A repetition is a call less than a minute after one that was none. -/
theorem dedupe_iff {c : TelegramClient} {notes : List AlertNote} {cut now : ℚ} {kind : String}
    (h : TracksAlerts c notes cut) (hnow : dedupeSeconds ≤ now) :
    now - (c.lastSeen.get? kind).getD 0 < dedupeSeconds ↔
      ∃ t, AlertNote.seen kind t ∈ notes ∧ now - t < dedupeSeconds := by
  cases hlast : c.lastSeen.get? kind with
  | none =>
    constructor
    · intro hlt
      rw [Option.getD_none, sub_zero] at hlt
      exact absurd hlt (not_lt.mpr hnow)
    · rintro ⟨t, ht, -⟩
      obtain ⟨last, hsome, -⟩ := h.seen_last kind t ht
      rw [hlast] at hsome
      exact absurd hsome (by simp)
  | some last =>
    constructor
    · intro hlt
      exact ⟨last, h.seen_mem kind last hlast, hlt⟩
    · rintro ⟨t, ht, hlt⟩
      obtain ⟨last', hsome, hle⟩ := h.seen_last kind t ht
      obtain rfl : last = last' := Option.some.inj (hlast.symm.trans hsome)
      exact (sub_le_sub_left hle now).trans_lt hlt

/-- The circuit is closed for a call once every cooldown is over. -/
theorem not_suppressed_iff {c : TelegramClient} {notes : List AlertNote} {cut now : ℚ}
    (h : TracksAlerts c notes cut) (hnow : 0 ≤ now) :
    c.suppressedUntil ≤ now ↔
      ∀ t, AlertNote.tripped t ∈ notes → t + circuitBreakerCooldownS ≤ now := by
  constructor
  · intro hle t ht
    exact (h.suppressed_last t ht).trans hle
  · intro hall
    rcases h.suppressed_mem with hzero | ⟨t, ht, heq⟩
    · rw [hzero]
      exact hnow
    · rw [heq]
      exact hall t ht

/-- The window that is pruned at a call is what was delivered in the last minute. -/
theorem window_eq {c : TelegramClient} {notes : List AlertNote} {cut now : ℚ}
    (h : TracksAlerts c notes cut) (hnow : cut ≤ now) :
    (c.sentWindow.filter fun t => now - circuitBreakerWindowS < t) =
      within circuitBreakerWindowS now (deliveries notes) := by
  rw [← h.sent.within_eq hnow, within]
  refine List.filter_congr fun t _ => ?_
  rw [decide_eq_decide]
  exact sub_lt_comm

/-! ## One step -/

/-- The client after a call that is no repetition. -/
def afterSeen (c : TelegramClient) (kind : String) (now : ℚ) : TelegramClient :=
  { c with lastSeen := c.lastSeen.set kind now }

/-- The client with its window pruned. -/
def afterPrune (c : TelegramClient) (now : ℚ) : TelegramClient :=
  { c with sentWindow := c.sentWindow.filter fun t => now - circuitBreakerWindowS < t }

/-- What a call can come to: a repetition, an alert in a cooldown, one that opens the circuit, or
a message sent out. -/
inductive SendCase (c : TelegramClient) (event : AlertEvent) (t₁ t₂ : ℚ) :
    TelegramClient → List AlertNote → Prop
  | repeated (h : t₁ - (c.lastSeen.get? event.kind).getD 0 < dedupeSeconds) :
    SendCase c event t₁ t₂ c []
  | suppressed (h : ¬t₁ - (c.lastSeen.get? event.kind).getD 0 < dedupeSeconds)
    (hcool : t₂ < c.suppressedUntil) :
    SendCase c event t₁ t₂ (afterSeen c event.kind t₁) [.seen event.kind t₁]
  | trips (h : ¬t₁ - (c.lastSeen.get? event.kind).getD 0 < dedupeSeconds)
    (hcool : c.suppressedUntil ≤ t₂)
    (hfull : circuitBreakerMax ≤
      (c.sentWindow.filter fun t => t₂ - circuitBreakerWindowS < t).length) :
    SendCase c event t₁ t₂
      { afterPrune (afterSeen c event.kind t₁) t₂ with suppressedUntil := t₂ + circuitBreakerCooldownS }
      [.seen event.kind t₁, .tripped t₂]
  | posts (h : ¬t₁ - (c.lastSeen.get? event.kind).getD 0 < dedupeSeconds)
    (hcool : c.suppressedUntil ≤ t₂)
    (hfree : (c.sentWindow.filter fun t => t₂ - circuitBreakerWindowS < t).length <
      circuitBreakerMax) :
    SendCase c event t₁ t₂
      { afterPrune (afterSeen c event.kind t₁) t₂ with inFlight := c.inFlight + 1 }
      [.seen event.kind t₁, .posted event.body]

/-- Every call comes to one of these. -/
theorem send_cases (c : TelegramClient) (event : AlertEvent) (t₁ t₂ : ℚ) :
    SendCase c event t₁ t₂ (alertMachine.next c (.send event t₁ t₂))
      (alertMachine.emits c (.send event t₁ t₂)) := by
  show SendCase c event t₁ t₂ (TelegramClient.step c (.send event t₁ t₂)).1
    (TelegramClient.step c (.send event t₁ t₂)).2
  by_cases hdedupe : t₁ - (c.lastSeen.get? event.kind).getD 0 < dedupeSeconds
  · have hstep : TelegramClient.step c (.send event t₁ t₂) = (c, []) := by
      simp [TelegramClient.step, TelegramClient.dedupe, hdedupe]
    rw [hstep]
    exact .repeated hdedupe
  · have hstep : TelegramClient.step c (.send event t₁ t₂) =
        (((afterSeen c event.kind t₁).pass event t₂).1,
          .seen event.kind t₁ :: ((afterSeen c event.kind t₁).pass event t₂).2) := by
      simp [TelegramClient.step, TelegramClient.dedupe, hdedupe, afterSeen]
    rw [hstep]
    by_cases hcool : t₂ < c.suppressedUntil
    · have hpass : (afterSeen c event.kind t₁).pass event t₂ = (afterSeen c event.kind t₁, []) := by
        simp [TelegramClient.pass, TelegramClient.circuitOpen, afterSeen, hcool]
      rw [hpass]
      exact .suppressed hdedupe hcool
    · by_cases hfull : circuitBreakerMax ≤
          (c.sentWindow.filter fun t => t₂ - circuitBreakerWindowS < t).length
      · have hpass : (afterSeen c event.kind t₁).pass event t₂ =
            ({ afterPrune (afterSeen c event.kind t₁) t₂ with
              suppressedUntil := t₂ + circuitBreakerCooldownS }, [.tripped t₂]) := by
          simp [TelegramClient.pass, TelegramClient.circuitOpen, afterSeen, afterPrune, hcool, hfull]
        rw [hpass]
        exact .trips hdedupe (not_lt.mp hcool) hfull
      · have hpass : (afterSeen c event.kind t₁).pass event t₂ =
            ({ afterPrune (afterSeen c event.kind t₁) t₂ with inFlight := c.inFlight + 1 },
              [.posted event.body]) := by
          simp [TelegramClient.pass, TelegramClient.circuitOpen, afterSeen, afterPrune, hcool, hfull]
        rw [hpass]
        exact .posts hdedupe (not_lt.mp hcool) (not_le.mp hfull)

/-- What an answer can come to: nothing is on its way, the message failed, or it was taken. -/
theorem answered_cases (c : TelegramClient) (ok : Bool) (now : ℚ) :
    (alertMachine.next c (.answered ok now) = c ∧
        alertMachine.emits c (.answered ok now) = []) ∨
      ∃ n, c.inFlight = n + 1 ∧
        ((alertMachine.next c (.answered ok now) = { c with inFlight := n } ∧
            alertMachine.emits c (.answered ok now) = []) ∨
          (alertMachine.next c (.answered ok now) =
              { c with sentWindow := c.sentWindow ++ [now], inFlight := n } ∧
            alertMachine.emits c (.answered ok now) = [.delivered now])) := by
  obtain ⟨lastSeen, sentWindow, suppressedUntil, inFlight⟩ := c
  cases inFlight with
  | zero => exact .inl ⟨rfl, rfl⟩
  | succ n =>
    refine .inr ⟨n, rfl, ?_⟩
    cases ok with
    | false => exact .inl ⟨rfl, rfl⟩
    | true => exact .inr ⟨rfl, rfl⟩

/-- A call that is no repetition is noted down under its kind. -/
theorem TracksAlerts.noted {c : TelegramClient} {notes : List AlertNote} {cut : ℚ}
    (h : TracksAlerts c notes cut) (kind : String) (now : ℚ)
    (hle : ∀ t, AlertNote.seen kind t ∈ notes → t ≤ now) :
    TracksAlerts (afterSeen c kind now) (notes ++ [.seen kind now]) cut where
  seen_mem := by
    intro kind' t ht
    by_cases hkind : kind' = kind
    · subst hkind
      have heq : t = now := by
        rw [afterSeen, Dict.get?_set_self] at ht
        exact (Option.some.inj ht).symm
      rw [heq]
      exact List.mem_append_right _ (List.mem_singleton.mpr rfl)
    · rw [afterSeen, Dict.get?_set, if_neg hkind] at ht
      exact List.mem_append_left _ (h.seen_mem kind' t ht)
  seen_last := by
    intro kind' t ht
    by_cases hkind : kind' = kind
    · subst hkind
      refine ⟨now, Dict.get?_set_self _ _ _, ?_⟩
      rcases List.mem_append.mp ht with hold | hnew
      · exact hle t hold
      · cases List.mem_singleton.mp hnew
        exact le_rfl
    · rw [afterSeen, Dict.get?_set, if_neg hkind]
      rcases List.mem_append.mp ht with hold | hnew
      · exact h.seen_last kind' t hold
      · cases List.mem_singleton.mp hnew
        exact absurd rfl hkind
  suppressed_mem := by
    rcases h.suppressed_mem with hzero | ⟨t, ht, heq⟩
    · exact .inl hzero
    · exact .inr ⟨t, List.mem_append_left _ ht, heq⟩
  suppressed_last := by
    intro t ht
    rcases List.mem_append.mp ht with hold | hnew
    · exact h.suppressed_last t hold
    · exact absurd (List.mem_singleton.mp hnew) (by simp)
  sent := by
    have hnone : deliveries [.seen kind now] = [] := rfl
    rw [deliveries_append, hnone, List.append_nil]
    exact h.sent

/-- The window is cut at a later time. -/
theorem TracksAlerts.pruned {c : TelegramClient} {notes : List AlertNote} {cut now : ℚ}
    (h : TracksAlerts c notes cut) (hnow : cut ≤ now) : TracksAlerts (afterPrune c now) notes now := by
  refine ⟨h.seen_mem, h.seen_last, h.suppressed_mem, h.suppressed_last, ?_⟩
  have hwindow := (h.sent.prune hnow)
  rw [h.sent.within_eq hnow, ← window_eq h hnow] at hwindow
  exact hwindow

/-- A note that is no kind and no cooldown matters to the window of deliveries only. -/
theorem TracksAlerts.sending {c : TelegramClient} {notes : List AlertNote} {cut : ℚ}
    (h : TracksAlerts c notes cut) {note : AlertNote} {sentWindow : List ℚ} (n : ℕ)
    (hseen : ∀ kind t, AlertNote.seen kind t ≠ note) (htripped : ∀ t, AlertNote.tripped t ≠ note)
    (hsent : Prunes circuitBreakerWindowS cut sentWindow (deliveries (notes ++ [note]))) :
    TracksAlerts { c with sentWindow := sentWindow, inFlight := n } (notes ++ [note]) cut := by
  have hold : ∀ e, e ≠ note → e ∈ notes ++ [note] → e ∈ notes :=
    fun e hne he =>
      (List.mem_append.mp he).resolve_right fun hnew => hne (List.mem_singleton.mp hnew)
  refine ⟨fun kind t ht => List.mem_append_left _ (h.seen_mem kind t ht),
    fun kind t ht => h.seen_last kind t (hold _ (hseen kind t) ht), ?_,
    fun t ht => h.suppressed_last t (hold _ (htripped t) ht), hsent⟩
  rcases h.suppressed_mem with hzero | ⟨t, ht, heq⟩
  · exact .inl hzero
  · exact .inr ⟨t, List.mem_append_left _ ht, heq⟩

/-- A message on its way changes nothing. -/
theorem TracksAlerts.posted {c : TelegramClient} {notes : List AlertNote} {cut : ℚ}
    (h : TracksAlerts c notes cut) (body : String) (n : ℕ) :
    TracksAlerts { c with inFlight := n } (notes ++ [.posted body]) cut := by
  apply h.sending n (by simp) (by simp)
  have hnone : deliveries [.posted body] = [] := rfl
  rw [deliveries_append, hnone, List.append_nil]
  exact h.sent

/-- The circuit opens at a time at which it was closed. -/
theorem TracksAlerts.tripped {c : TelegramClient} {notes : List AlertNote} {cut now : ℚ}
    (h : TracksAlerts c notes cut) (hcool : c.suppressedUntil ≤ now) :
    TracksAlerts { c with suppressedUntil := now + circuitBreakerCooldownS } (notes ++ [.tripped now])
      cut := by
  refine ⟨fun kind t ht => List.mem_append_left _ (h.seen_mem kind t ht), ?_,
    .inr ⟨now, List.mem_append_right _ (List.mem_singleton.mpr rfl), rfl⟩, ?_, ?_⟩
  · intro kind t ht
    rcases List.mem_append.mp ht with hold | hnew
    · exact h.seen_last kind t hold
    · exact absurd (List.mem_singleton.mp hnew) (by simp)
  · intro t ht
    have hlong : (0 : ℚ) ≤ circuitBreakerCooldownS := by
      unfold circuitBreakerCooldownS
      norm_num
    rcases List.mem_append.mp ht with hold | hnew
    · exact (h.suppressed_last t hold).trans (hcool.trans (le_add_of_nonneg_right hlong))
    · cases List.mem_singleton.mp hnew
      exact le_rfl
  · have hnone : deliveries [.tripped now] = [] := rfl
    rw [deliveries_append, hnone, List.append_nil]
    exact h.sent

/-- Telegram takes a message. -/
theorem TracksAlerts.delivered {c : TelegramClient} {notes : List AlertNote} {cut : ℚ}
    (h : TracksAlerts c notes cut) (now : ℚ) (n : ℕ) :
    TracksAlerts { c with sentWindow := c.sentWindow ++ [now], inFlight := n }
      (notes ++ [.delivered now]) cut := by
  apply h.sending n (by simp) (by simp)
  have hone : deliveries [.delivered now] = [now] := rfl
  rw [deliveries_append, hone]
  exact h.sent.append [now]

/-! ## A whole run -/

/-- The client after a run, what the run noted down and when. -/
structure AlertHistory (ls : List AlertLabel) (c : TelegramClient) (notes : List AlertNote) :
    Prop where
  tracks : ∃ cut ∈ dedupeSeconds :: ls.flatMap AlertLabel.times, TracksAlerts c notes cut
  seen_shown : ∀ kind t, AlertNote.seen kind t ∈ notes →
    t ∈ dedupeSeconds :: ls.flatMap AlertLabel.times
  delivered_shown : ∀ t ∈ deliveries notes, t ∈ dedupeSeconds :: ls.flatMap AlertLabel.times

/-- A time the clock has shown stays one. -/
theorem shown_concat {ls : List AlertLabel} {t : ℚ} (l : AlertLabel)
    (h : t ∈ dedupeSeconds :: ls.flatMap AlertLabel.times) :
    t ∈ dedupeSeconds :: (ls ++ [l]).flatMap AlertLabel.times := by
  rw [List.flatMap_append, ← List.cons_append]
  exact List.mem_append_left _ h

/-- The times of the last step have been shown. -/
theorem shown_last {ls : List AlertLabel} {l : AlertLabel} {t : ℚ} (h : t ∈ AlertLabel.times l) :
    t ∈ dedupeSeconds :: (ls ++ [l]).flatMap AlertLabel.times := by
  rw [List.flatMap_append, ← List.cons_append]
  exact List.mem_append_right _ (by simpa using h)

/-- Notes that come with times of the step, and a client that tracks them. -/
theorem AlertHistory.concat {ls : List AlertLabel} {l : AlertLabel} {c c' : TelegramClient}
    {notes new : List AlertNote} (h : AlertHistory ls c notes) (cut : ℚ)
    (hcut : cut ∈ dedupeSeconds :: (ls ++ [l]).flatMap AlertLabel.times)
    (htracks : TracksAlerts c' (notes ++ new) cut)
    (hseen : ∀ kind t, AlertNote.seen kind t ∈ new → t ∈ AlertLabel.times l)
    (hdelivered : ∀ t ∈ deliveries new, t ∈ AlertLabel.times l) :
    AlertHistory (ls ++ [l]) c' (notes ++ new) := by
  refine ⟨⟨cut, hcut, htracks⟩, ?_, ?_⟩
  · intro kind t ht
    rcases List.mem_append.mp ht with hold | hnew
    · exact shown_concat l (h.seen_shown kind t hold)
    · exact shown_last (hseen kind t hnew)
  · intro t ht
    rw [deliveries_append] at ht
    rcases List.mem_append.mp ht with hold | hnew
    · exact shown_concat l (h.delivered_shown t hold)
    · exact shown_last (hdelivered t hnew)

/-- A step keeps the client in line with what was noted down. -/
theorem alertHistory_step {ls : List AlertLabel} {l : AlertLabel} {c : TelegramClient}
    {notes : List AlertNote} (hclock : AlertClockForward (ls ++ [l]))
    (h : AlertHistory ls c notes) :
    AlertHistory (ls ++ [l]) (alertMachine.next c l) (notes ++ alertMachine.emits c l) := by
  obtain ⟨cut, hcut, htracks⟩ := h.tracks
  cases l with
  | send event t₁ t₂ =>
    have hle₂ : cut ≤ t₂ := hclock.le_next cut hcut t₂ (by simp [AlertLabel.times])
    have hseen : ∀ t, AlertNote.seen event.kind t ∈ notes → t ≤ t₁ := fun t ht =>
      hclock.le_next t (h.seen_shown event.kind t ht) t₁ (by simp [AlertLabel.times])
    have hnoted := htracks.noted event.kind t₁ hseen
    have ht₂ : t₂ ∈ dedupeSeconds ::
        (ls ++ [AlertLabel.send event t₁ t₂]).flatMap AlertLabel.times :=
      shown_last (by simp [AlertLabel.times])
    generalize hnext : alertMachine.next c (.send event t₁ t₂) = c'
    generalize hemits : alertMachine.emits c (.send event t₁ t₂) = new
    have hcases := send_cases c event t₁ t₂
    rw [hnext, hemits] at hcases
    cases hcases with
    | repeated hdedupe =>
      exact h.concat cut (shown_concat _ hcut) (by rwa [List.append_nil]) (by simp)
        (by simp [deliveries])
    | suppressed hdedupe hcool =>
      exact h.concat cut (shown_concat _ hcut) hnoted (by simp [AlertLabel.times])
        (by simp [deliveries, AlertNote.deliveredAt])
    | trips hdedupe hcool hfull =>
      have htripped := (hnoted.pruned hle₂).tripped hcool
      rw [List.append_assoc] at htripped
      exact h.concat t₂ ht₂ htripped (by simp [AlertLabel.times])
        (by simp [deliveries, AlertNote.deliveredAt])
    | posts hdedupe hcool hfree =>
      have hposted := (hnoted.pruned hle₂).posted event.body (c.inFlight + 1)
      rw [List.append_assoc] at hposted
      exact h.concat t₂ ht₂ hposted (by simp [AlertLabel.times])
        (by simp [deliveries, AlertNote.deliveredAt])
  | answered ok now =>
    rcases answered_cases c ok now with ⟨hnext, hemits⟩ | ⟨n, -, ⟨hnext, hemits⟩ | ⟨hnext, hemits⟩⟩
    · rw [hnext, hemits]
      exact h.concat cut (shown_concat _ hcut) (by rwa [List.append_nil]) (by simp)
        (by simp [deliveries])
    · rw [hnext, hemits]
      refine h.concat cut (shown_concat _ hcut) ?_ (by simp) (by simp [deliveries])
      rw [List.append_nil]
      exact ⟨htracks.seen_mem, htracks.seen_last, htracks.suppressed_mem, htracks.suppressed_last,
        htracks.sent⟩
    · rw [hnext, hemits]
      exact h.concat cut (shown_concat _ hcut) (htracks.delivered now n) (by simp)
        (by simp [deliveries, AlertNote.deliveredAt, AlertLabel.times])

/-- So does a run, from a new client. -/
theorem alertHistory_run (ls : List AlertLabel) (hclock : AlertClockForward ls) :
    AlertHistory ls (alertMachine.final .new ls) (alertMachine.trace .new ls) := by
  induction ls using List.reverseRecOn with
  | nil =>
    refine ⟨⟨dedupeSeconds, List.mem_cons_self, ?_, ?_, .inl rfl, ?_, Prunes.refl _ _ _⟩, ?_, ?_⟩
    · intro kind t ht
      exact absurd ht (by simp [TelegramClient.new])
    · simp
    · simp
    · simp
    · simp [deliveries]
  | append_singleton ls l ih =>
    rw [Machine.final_concat, Machine.trace_concat]
    exact alertHistory_step hclock (ih hclock.of_concat)

/-- An alert of a kind of its own. -/
def alertOf (i : ℕ) : AlertEvent := ⟨toString i, toString i, .info⟩

/-- Alerts of different kinds, one a second, each of which Telegram takes at once. -/
def takenAlerts (n : ℕ) : List AlertLabel :=
  (List.range n).flatMap fun i => [.send (alertOf i) (60 + i) (60 + i), .answered true (60 + i)]

/-- Nineteen alerts and two more at once, of which one is taken at once; then one is repeated, one
opens the circuit, and the one that is on its way is taken a quarter of an hour late. -/
def crowdedMinute : List AlertLabel :=
  takenAlerts 19 ++ [.send (alertOf 19) 79 79, .send (alertOf 20) 79 79, .answered true 79,
    .send (alertOf 0) 80 80, .send (alertOf 21) 81 81, .answered true 940]

/-- What the crowded minute leaves for a later call of the first kind. -/
theorem crowdedMinute_notes :
    (alertMachine.trace .new crowdedMinute).all (fun note =>
      match note with
      | .seen kind t => kind ≠ "0" ∨ t = 60
      | .tripped t => t = 81
      | _ => true) = true := by
  decide +kernel

/-- How many messages Telegram took after a time. -/
def deliveredAfter (start : ℚ) (notes : List AlertNote) : ℕ :=
  ((deliveries notes).filter fun t => start < t).length

/-- How many messages Telegram took in the minute that ends at a time. -/
def deliveredInMinute (last : ℚ) (notes : List AlertNote) : ℕ :=
  ((deliveries notes).filter fun t => last - circuitBreakerWindowS < t ∧ t ≤ last).length

/-- Fewer messages are taken after a later time. -/
theorem deliveredAfter_anti {start start' : ℚ} (h : start ≤ start') (notes : List AlertNote) :
    deliveredAfter start' notes ≤ deliveredAfter start notes := by
  refine List.Sublist.length_le (List.monotone_filter_right _ ?_)
  intro t ht
  exact decide_eq_true (h.trans_lt (of_decide_eq_true ht))

/-- The minute that ends at a time is part of what comes after its start. -/
theorem deliveredInMinute_le (last : ℚ) (notes : List AlertNote) :
    deliveredInMinute last notes ≤ deliveredAfter (last - circuitBreakerWindowS) notes := by
  refine List.Sublist.length_le (List.monotone_filter_right _ ?_)
  intro t ht
  exact decide_eq_true (of_decide_eq_true ht).1

/-- The messages taken after a time in a run continued. -/
theorem deliveredAfter_append (start : ℚ) (notes new : List AlertNote) :
    deliveredAfter start (notes ++ new) = deliveredAfter start notes + deliveredAfter start new := by
  rw [deliveredAfter, deliveries_append, List.filter_append, List.length_append]
  rfl

/-- The messages of the last minute, those on their way among them, since the last one was let
through. -/
structure Outstanding (k : ℕ) (shown : List ℚ) (c : TelegramClient) (notes : List AlertNote) :
    Prop where
  since : ∃ passed ∈ shown, ∀ start, passed - circuitBreakerWindowS ≤ start →
    deliveredAfter start notes + c.inFlight ≤ circuitBreakerMax - 1 + k
  minutes : ∀ last, deliveredInMinute last notes ≤ circuitBreakerMax - 1 + k

/-- A step that delivers nothing and lets nothing more through. -/
theorem Outstanding.quiet {k : ℕ} {ls : List AlertLabel} {l : AlertLabel} {c c' : TelegramClient}
    {notes new : List AlertNote}
    (h : Outstanding k (dedupeSeconds :: ls.flatMap AlertLabel.times) c notes)
    (hle : c'.inFlight ≤ c.inFlight) (hnew : deliveries new = []) :
    Outstanding k (dedupeSeconds :: (ls ++ [l]).flatMap AlertLabel.times) c' (notes ++ new) := by
  have hsame : deliveries (notes ++ new) = deliveries notes := by
    rw [deliveries_append, hnew, List.append_nil]
  obtain ⟨⟨passed, hpassed, hsince⟩, hminutes⟩ := h
  refine ⟨⟨passed, shown_concat l hpassed, fun start hstart => ?_⟩, fun last => ?_⟩
  · have hbound := hsince start hstart
    unfold deliveredAfter at hbound ⊢
    rw [hsame]
    omega
  · have hbound := hminutes last
    unfold deliveredInMinute at hbound ⊢
    rwa [hsame]

/-- A step keeps the bound, with as many posts in flight as are allowed. -/
theorem outstanding_step {k : ℕ} {ls : List AlertLabel} {l : AlertLabel} {c : TelegramClient}
    {notes : List AlertNote} (hclock : AlertClockForward (ls ++ [l]))
    (hhistory : AlertHistory ls c notes) (hflight : (alertMachine.next c l).inFlight ≤ k)
    (h : Outstanding k (dedupeSeconds :: ls.flatMap AlertLabel.times) c notes) :
    Outstanding k (dedupeSeconds :: (ls ++ [l]).flatMap AlertLabel.times)
      (alertMachine.next c l) (notes ++ alertMachine.emits c l) := by
  cases l with
  | send event t₁ t₂ =>
    obtain ⟨cut, hcut, htracks⟩ := hhistory.tracks
    have hcutle : cut ≤ t₂ := hclock.le_next cut hcut t₂ (by simp [AlertLabel.times])
    have hcases := send_cases c event t₁ t₂
    generalize alertMachine.next c (.send event t₁ t₂) = c' at hcases hflight ⊢
    generalize alertMachine.emits c (.send event t₁ t₂) = new at hcases ⊢
    cases hcases with
    | repeated hdedupe => exact h.quiet le_rfl rfl
    | suppressed hdedupe hcool => exact h.quiet le_rfl rfl
    | trips hdedupe hcool hfull => exact h.quiet le_rfl rfl
    | posts hdedupe hcool hfree =>
      -- from here on at most nineteen messages of the minute before count, and those on their way
      have hnone : ∀ start, deliveredAfter start [.seen event.kind t₁, .posted event.body] = 0 :=
        fun _ => rfl
      rw [window_eq htracks hcutle] at hfree
      have hwithin : deliveredAfter (t₂ - circuitBreakerWindowS) notes =
          (within circuitBreakerWindowS t₂ (deliveries notes)).length := by
        unfold deliveredAfter within
        congr 1
        refine List.filter_congr fun t _ => ?_
        rw [decide_eq_decide]
        exact sub_lt_comm
      refine ⟨⟨t₂, shown_last (by simp [AlertLabel.times]), fun start hstart => ?_⟩,
        fun last => ?_⟩
      · have hanti := deliveredAfter_anti hstart notes
        rw [deliveredAfter_append, hnone, add_zero]
        omega
      · have hbound := h.minutes last
        have hsame : deliveries (notes ++ [.seen event.kind t₁, .posted event.body]) =
            deliveries notes := by
          rw [deliveries_append]
          exact List.append_nil _
        unfold deliveredInMinute at hbound ⊢
        rwa [hsame]
  | answered ok now =>
    rcases answered_cases c ok now with
      ⟨hnext, hemits⟩ | ⟨n, hn, ⟨hnext, hemits⟩ | ⟨hnext, hemits⟩⟩
    · rw [hnext, hemits]
      exact h.quiet le_rfl rfl
    · rw [hnext, hemits]
      refine h.quiet ?_ rfl
      show n ≤ c.inFlight
      omega
    · rw [hnext, hemits]
      obtain ⟨⟨passed, hpassed, hsince⟩, hminutes⟩ := h
      have hpassedle : passed ≤ now := hclock.le_next passed hpassed now (by simp [AlertLabel.times])
      have hone : ∀ start, deliveredAfter start [.delivered now] ≤ 1 := by
        intro start
        exact (List.length_filter_le _ _).trans le_rfl
      have hafter : ∀ start, passed - circuitBreakerWindowS ≤ start →
          deliveredAfter start (notes ++ [.delivered now]) + n ≤ circuitBreakerMax - 1 + k := by
        intro start hstart
        have hbound := hsince start hstart
        have hnew := hone start
        rw [deliveredAfter_append]
        omega
      refine ⟨⟨passed, shown_concat _ hpassed, hafter⟩, fun last => ?_⟩
      by_cases hlast : last < now
      · -- the message is later than this minute
        have hbound := hminutes last
        have hsame : deliveredInMinute last (notes ++ [.delivered now]) =
            deliveredInMinute last notes := by
          have hnow : deliveries [.delivered now] = [now] := rfl
          unfold deliveredInMinute
          rw [deliveries_append, List.filter_append, hnow]
          simp [hlast]
        rwa [hsame]
      · have hcount := deliveredInMinute_le last (notes ++ [.delivered now])
        have hbound := hafter (last - circuitBreakerWindowS)
          (sub_le_sub_right (hpassedle.trans (not_lt.mp hlast)) _)
        omega

/-- **The limit of twenty a minute.** If the clock does not go back and never more than `k` messages
are on their way, Telegram takes at most `19 + k` messages in any minute: twenty if callers take
turns. -/
theorem deliveries_per_minute (k : ℕ) (ls : List AlertLabel) (hclock : AlertClockForward ls)
    (hflight : ∀ pre post, ls = pre ++ post → (alertMachine.final .new pre).inFlight ≤ k)
    (last : ℚ) :
    deliveredInMinute last (alertMachine.trace .new ls) ≤ circuitBreakerMax - 1 + k := by
  have h : Outstanding k (dedupeSeconds :: ls.flatMap AlertLabel.times)
      (alertMachine.final .new ls) (alertMachine.trace .new ls) := by
    induction ls using List.reverseRecOn with
    | nil =>
      refine ⟨⟨dedupeSeconds, List.mem_cons_self, fun start _ => ?_⟩, fun last => ?_⟩
      · exact Nat.zero_le _
      · exact Nat.zero_le _
    | append_singleton ls l ih =>
      have hbefore := ih hclock.of_concat fun pre post heq =>
        hflight pre (post ++ [l]) (by rw [heq, List.append_assoc])
      have hlast := hflight (ls ++ [l]) [] (List.append_nil _).symm
      rw [Machine.final_concat] at hlast ⊢
      rw [Machine.trace_concat]
      exact outstanding_step hclock (alertHistory_run ls hclock.of_concat) hlast hbefore
  exact h.minutes last

/-- Twenty alerts that callers send in turns are all that Telegram takes in their minute. -/
theorem deliveries_per_minute_takenAlerts :
    deliveredInMinute 79 (alertMachine.trace .new (takenAlerts 20)) = 20 ∧
      deliveredInMinute 79 (alertMachine.trace .new (takenAlerts 20)) ≤
        circuitBreakerMax - 1 + 1 := by
  refine ⟨by decide +kernel, deliveries_per_minute 1 (takenAlerts 20) ?_ ?_ 79⟩
  · unfold AlertClockForward
    decide +kernel
  · have htakes : ∀ n ≤ (takenAlerts 20).length,
        (alertMachine.final .new ((takenAlerts 20).take n)).inFlight ≤ 1 := by decide +kernel
    intro pre post heq
    have hpre : (takenAlerts 20).take pre.length = pre := by rw [heq, List.take_left]
    rw [← hpre]
    refine htakes _ ?_
    rw [heq, List.length_append]
    omega

end TradingEdge.Analysis
