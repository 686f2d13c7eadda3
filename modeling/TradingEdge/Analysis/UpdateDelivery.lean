import Mathlib
import TradingEdge.Library.Simulation
import TradingEdge.Program.UpdatePolling

/-!
# Delivery of updates to the command poller

Telegram's updates reach the handlers at least once, in order, and twice only around a restart.
The poller and the Bot API are a feed acknowledged by a cursor (`polling_simulates`): the offset is
one above the last id fetched, and an offset of zero acknowledges nothing.
-/

set_option autoImplicit false

namespace TradingEdge.Analysis

open TradingEdge.Model TradingEdge.Library TradingEdge.Program

/-! ## The poller as a feed -/

/-- An id as a key of the feed. -/
def updateKey (u : BotUpdate) : WithBot ℤ := (u.updateId : WithBot ℤ)

/-- The last id that an offset acknowledges. -/
def ackedBy (offset : ℤ) : WithBot ℤ := if offset = 0 then ⊥ else ((offset - 1 : ℤ) : WithBot ℤ)

/-- `CommandPoller._handle_update` as the handler of a feed. -/
def updateHandler (cfg : PollerConfig) : Machine (Dict ℤ ℤ) (BotUpdate × HandlingContext) BotEvent :=
  ⟨fun pending l => handleUpdate cfg pending (l.1.during l.2)⟩

/-- The feed that the poller and the Bot API make up. -/
def pollingView (s : UpdatePolling) : AckFeed BotUpdate (Dict ℤ ℤ) (WithBot ℤ) where
  pending := s.unconfirmed
  newest := if s.lastId = 0 then ⊥ else (s.lastId : WithBot ℤ)
  acked := ackedBy s.offset
  batch := s.updates
  memory := s.pending

def pollingMove : PollingLabel → AckFeed.Move BotUpdate HandlingContext
  | .message u => .arrive u
  | .forget => .expire
  | .getUpdates received answer => .ask received answer.updates
  | .handleUpdate c => .handle c
  | .restart => .restart

/-- The ids given out are positive. -/
structure PositiveIds (s : UpdatePolling) : Prop where
  last : 0 ≤ s.lastId
  unconfirmed : ∀ u ∈ s.unconfirmed, 0 < u.updateId

/-- Confirming by a cursor is what the API does with an offset. -/
theorem confirm_ackedBy (offset : ℤ) (unconfirmed : List BotUpdate) :
    AckFeed.confirm updateKey (ackedBy offset) unconfirmed = confirmUpdates offset unconfirmed := by
  unfold AckFeed.confirm confirmUpdates ackedBy
  by_cases hzero : offset = 0
  · simp [hzero, updateKey]
  · rw [if_neg hzero, if_pos hzero]
    refine List.filter_congr fun u _ => ?_
    rw [decide_eq_decide, updateKey, WithBot.coe_lt_coe]
    omega

/-- What is left after a confirmation was there. -/
theorem mem_of_mem_confirmUpdates {offset : ℤ} {unconfirmed : List BotUpdate} {u : BotUpdate}
    (h : u ∈ confirmUpdates offset unconfirmed) : u ∈ unconfirmed := by
  rw [← confirm_ackedBy, AckFeed.mem_confirm] at h
  exact h.1

/-- The updates of an answer are on offer. -/
theorem mem_unconfirmed_of_answer {offset : ℤ} {unconfirmed : List BotUpdate} {received : Bool}
    {answer : GetUpdatesAnswer}
    (h : if received then answer.updates <+: confirmUpdates offset unconfirmed
      else answer.updates = []) {u : BotUpdate} (hu : u ∈ answer.updates) : u ∈ unconfirmed := by
  cases received with
  | true =>
    have hanswer : answer.updates <+: confirmUpdates offset unconfirmed := h
    exact mem_of_mem_confirmUpdates (hanswer.subset hu)
  | false =>
    have hnone : answer.updates = [] := h
    rw [hnone] at hu
    exact absurd hu List.not_mem_nil

/-- The cursor of the feed moves as the offset does, ids being positive. -/
theorem advance_ackedBy (offset : ℤ) (answer : GetUpdatesAnswer)
    (hpos : ∀ u ∈ answer.updates, 0 < u.updateId) :
    AckFeed.advance updateKey (ackedBy offset) answer.updates =
      ackedBy (offsetAfter offset answer) := by
  unfold AckFeed.advance offsetAfter
  cases hlast : answer.updates.getLast? with
  | none => rfl
  | some u =>
    have hu := hpos u (List.mem_of_getLast? hlast)
    show updateKey u = ackedBy (u.updateId + 1)
    have hback : u.updateId + 1 - 1 = u.updateId := by omega
    rw [ackedBy, if_neg (by omega), hback]
    rfl

/-- **The poller and the Bot API are an acknowledged feed.** -/
theorem polling_simulates (cfg : PollerConfig) :
    Simulates (updatePollingMachine cfg) (AckFeed.machine updateKey (updateHandler cfg) Dict.empty)
      pollingView pollingMove PositiveIds BotApi (AckFeed.Served updateKey) where
  keeps := by
    intro s l hs hl
    cases l with
    | message u =>
      have hu : s.lastId < u.updateId := hl
      have hlast := hs.last
      refine ⟨by show 0 ≤ u.updateId; omega, ?_⟩
      intro v hv
      rcases List.mem_append.mp hv with hold | hnew
      · exact hs.unconfirmed v hold
      · rw [List.mem_singleton.mp hnew]
        omega
    | forget =>
      show PositiveIds (UpdatePolling.step cfg s .forget).1
      simp only [UpdatePolling.step]
      split
      · exact hs
      · next u rest hrest =>
        exact ⟨hs.last, fun v hv => hs.unconfirmed v (hrest ▸ List.mem_cons_of_mem u hv)⟩
    | getUpdates received answer =>
      show PositiveIds (UpdatePolling.step cfg s (.getUpdates received answer)).1
      simp only [UpdatePolling.step]
      split
      · refine ⟨hs.last, fun v hv => hs.unconfirmed v ?_⟩
        dsimp only at hv
        split at hv
        · exact mem_of_mem_confirmUpdates hv
        · exact hv
      · exact hs
    | handleUpdate c =>
      show PositiveIds (UpdatePolling.step cfg s (.handleUpdate c)).1
      simp only [UpdatePolling.step]
      split
      · exact hs
      · exact ⟨hs.last, hs.unconfirmed⟩
    | restart => exact ⟨hs.last, hs.unconfirmed⟩
  meets := by
    intro s l hs hl
    cases l with
    | message u =>
      have hu : s.lastId < u.updateId := hl
      show (if s.lastId = 0 then ⊥ else (s.lastId : WithBot ℤ)) < updateKey u
      split
      · exact WithBot.bot_lt_coe _
      · exact WithBot.coe_lt_coe.mpr hu
    | getUpdates received answer =>
      intro hbatch
      rw [pollingView, confirm_ackedBy]
      exact hl hbatch
    | forget => trivial
    | handleUpdate c => trivial
    | restart => trivial
  next := by
    intro s l hs hl
    obtain ⟨unconfirmed, lastId, offset, updates, pending⟩ := s
    cases l with
    | message u =>
      have hu : lastId < u.updateId := hl
      have hlast : 0 ≤ lastId := hs.last
      have hkey : (if u.updateId = 0 then ⊥ else (u.updateId : WithBot ℤ)) = updateKey u :=
        if_neg (by omega)
      exact congrArg (fun newest => AckFeed.mk (unconfirmed ++ [u]) newest (ackedBy offset) updates
        pending) hkey.symm
    | forget =>
      cases unconfirmed with
      | nil => rfl
      | cons u rest => rfl
    | getUpdates received answer =>
      cases updates with
      | cons u rest => rfl
      | nil =>
        have hanswer : if received then answer.updates <+: confirmUpdates offset unconfirmed
          else answer.updates = [] := hl rfl
        have hpos : ∀ u ∈ answer.updates, 0 < u.updateId :=
          fun u hu => hs.unconfirmed u (mem_unconfirmed_of_answer hanswer hu)
        have hadvance := advance_ackedBy offset answer hpos
        have hconfirm := confirm_ackedBy offset unconfirmed
        show AckFeed.mk (if received then AckFeed.confirm updateKey (ackedBy offset) unconfirmed
          else unconfirmed) _ (AckFeed.advance updateKey (ackedBy offset) answer.updates) _ _ = _
        rw [hadvance, hconfirm]
        rfl
    | handleUpdate c =>
      cases updates with
      | nil => rfl
      | cons u rest => rfl
    | restart => rfl
  emits := by
    intro s l _ _
    obtain ⟨unconfirmed, lastId, offset, updates, pending⟩ := s
    cases l with
    | message u => rfl
    | forget =>
      cases unconfirmed with
      | nil => rfl
      | cons u rest => rfl
    | getUpdates received answer =>
      cases updates with
      | nil => rfl
      | cons u rest => rfl
    | handleUpdate c =>
      cases updates with
      | nil => rfl
      | cons u rest => rfl
    | restart => rfl

/-- Before the first update all ids are positive. -/
theorem positiveIds_fresh : PositiveIds .fresh := ⟨le_rfl, by simp [UpdatePolling.fresh]⟩

/-- `CommandPoller._handle_update` on the updates of a session is the poller of commands. -/
theorem updateHandler_simulates (cfg : PollerConfig) :
    Simulates (updateHandler cfg) (pollerMachine cfg) id (fun l => l.1.during l.2)
      (fun _ => True) (fun _ _ => True) (fun _ _ => True) where
  keeps := fun _ _ _ _ => trivial
  meets := fun _ _ _ _ => trivial
  next := fun _ _ _ _ => rfl
  emits := fun _ _ _ _ => rfl

section Run

variable (cfg : PollerConfig) (ls : List PollingLabel)
  (hapi : (updatePollingMachine cfg).Along BotApi .fresh ls)

include hapi

/-- The polling is a feed whose server keeps its promises. -/
theorem polling_served : (AckFeed.machine updateKey (updateHandler cfg) Dict.empty).Along
    (AckFeed.Served updateKey) (AckFeed.start Dict.empty) (ls.map pollingMove) :=
  (polling_simulates cfg).along_map .fresh positiveIds_fresh ls hapi

/-- Its notes are those of the feed. -/
theorem polling_trace : (AckFeed.machine updateKey (updateHandler cfg) Dict.empty).trace
    (AckFeed.start Dict.empty) (ls.map pollingMove) = (updatePollingMachine cfg).trace .fresh ls :=
  (polling_simulates cfg).trace_map .fresh positiveIds_fresh ls hapi

/-- Its state is that of the feed. -/
theorem polling_final : (AckFeed.machine updateKey (updateHandler cfg) Dict.empty).final
    (AckFeed.start Dict.empty) (ls.map pollingMove) =
      pollingView ((updatePollingMachine cfg).final .fresh ls) :=
  (polling_simulates cfg).final_map .fresh positiveIds_fresh ls hapi

end Run

/-! ## What reaches the handlers -/

/-- An update that an offset does not acknowledge. -/
theorem le_of_ackedBy_lt {offset : ℤ} {u : BotUpdate} (h : ackedBy offset < updateKey u)
    (hpos : 0 < u.updateId) : offset ≤ u.updateId := by
  unfold ackedBy at h
  by_cases hzero : offset = 0
  · omega
  · rw [if_neg hzero] at h
    have hlt : offset - 1 < u.updateId := WithBot.coe_lt_coe.mp h
    omega

/-- A message that comes in, is fetched and handled, and is fetched and handled again by a poller
that was started anew before it had asked again. -/
def redelivery : List PollingLabel :=
  let u : BotUpdate := ⟨1, some 7, some 7, none⟩
  [.message u, .getUpdates true (.result [u]), .handleUpdate ⟨0, 0, none, true⟩, .restart,
    .getUpdates true (.result [u]), .handleUpdate ⟨5, 5, none, true⟩]

/-- The run is one that the API allows. -/
theorem redelivery_api : (updatePollingMachine ⟨[7], id⟩).Along BotApi .fresh redelivery := by
  simp only [redelivery, Machine.along_cons_iff]
  refine ⟨Int.zero_lt_one, fun _ => List.prefix_refl _, trivial, trivial, fun _ => List.prefix_refl _,
    trivial, Obeys.nil⟩

/-- **Updates are handled in order, and again only around a restart.** Of two handlings the later
one is of a later update, unless the poller restarted in between; and an update is handled again
only if the poller restarted before another request of its came in. -/
theorem handled_in_order (cfg : PollerConfig) (ls : List PollingLabel)
    (hapi : (updatePollingMachine cfg).Along BotApi .fresh ls)
    (front since back : List PollingNote) (u v : BotUpdate) (c d : HandlingContext)
    (out out' : List BotEvent)
    (htrace : (updatePollingMachine cfg).trace .fresh ls =
      front ++ .handled u c out :: (since ++ .handled v d out' :: back)) :
    (AckFeed.Note.restarted ∉ since → u.updateId < v.updateId) ∧
      (u.updateId = v.updateId →
        since.find? AckFeed.Note.isMark = some AckFeed.Note.restarted) := by
  have horder := AckFeed.inOrder_run _ (polling_served cfg ls hapi)
  rw [polling_trace cfg ls hapi] at horder
  obtain ⟨hlt, hagain⟩ := horder front u c out since v d out' back htrace
  refine ⟨fun hno => WithBot.coe_lt_coe.mp (hlt hno), fun heq => hagain ?_⟩
  exact congrArg (fun id : ℤ => (id : WithBot ℤ)) heq

/-- It is handled twice, with a restart in between that no request preceded. -/
theorem handled_in_order_redelivery :
    (updatePollingMachine ⟨[7], id⟩).trace .fresh redelivery =
      [.arrived ⟨1, some 7, some 7, none⟩, .asked] ++
        .handled ⟨1, some 7, some 7, none⟩ ⟨0, 0, none, true⟩ [] :: ([.restarted, .asked] ++
          .handled ⟨1, some 7, some 7, none⟩ ⟨5, 5, none, true⟩ [] :: []) ∧
    ([.restarted, .asked] : List PollingNote).find? AckFeed.Note.isMark =
      some AckFeed.Note.restarted :=
  ⟨rfl, (handled_in_order ⟨[7], id⟩ redelivery redelivery_api [.arrived _, .asked]
    [.restarted, .asked] [] _ _ _ _ [] [] rfl).2 rfl⟩

/-- The state a session starts in: the poller is started anew after `before`. -/
def sessionStart (cfg : PollerConfig) (before : List PollingLabel) : UpdatePolling :=
  ((updatePollingMachine cfg).final .fresh before).restarted

/-- What was handled, each with the context of its handling. -/
def handledUpdates (notes : List PollingNote) : List TelegramUpdate :=
  (notes.filterMap AckFeed.Note.served).map fun l => l.1.during l.2

/-- What the poller has in a session of its own and what the Bot API promises hold from the start
of the session on. -/
theorem session_along {cfg : PollerConfig} {before session : List PollingLabel}
    (hapi : (updatePollingMachine cfg).Along BotApi .fresh (before ++ .restart :: session)) :
    PositiveIds (sessionStart cfg before) ∧
      AckFeed.Tidy updateKey (pollingView (sessionStart cfg before)) ∧
      (updatePollingMachine cfg).Along BotApi (sessionStart cfg before) session := by
  obtain ⟨hbefore, hrest⟩ := (Obeys.append_iff before (.restart :: session)).mp hapi
  refine ⟨?_, ?_, ?_⟩
  · have h := (polling_simulates cfg).inv_final .fresh positiveIds_fresh before hbefore
    exact ⟨h.last, h.unconfirmed⟩
  · have h := AckFeed.tidy_run _ (polling_served cfg before hbefore)
    rw [polling_final cfg before hbefore] at h
    exact @AckFeed.Tidy.turn _ _ _ _ _ _ _ updateKey (updateHandler cfg) Dict.empty _ _ _ h .restart
  · refine ((Obeys.cons_iff _ _).mp hrest).2.mono fun pre l hl => ?_
    rw [Machine.final_append, Machine.final_cons] at hl
    exact hl

/-- The kill switch is asked for, and the poller starts anew before it has confirmed the update; it
asks for the confirmation once more, and gets it. -/
def askedTwice : List PollingLabel :=
  let u : BotUpdate := ⟨1, some 7, some 7, some "/killswitch"⟩
  let v : BotUpdate := ⟨2, some 7, some 7, some "sí lo entiendo"⟩
  [.message u, .getUpdates true (.result [u]), .handleUpdate ⟨0, 0, none, true⟩, .restart,
    .getUpdates true (.result [u]), .handleUpdate ⟨5, 5, none, true⟩, .message v,
    .getUpdates true (.result [v]), .handleUpdate ⟨9, 9, none, true⟩]

/-- The Bot API behaves. -/
theorem askedTwice_api : (updatePollingMachine ⟨[7], id⟩).Along BotApi .fresh askedTwice := by
  simp only [askedTwice, Machine.along_cons_iff]
  refine ⟨Int.zero_lt_one, fun _ => List.prefix_refl _, trivial, trivial,
    fun _ => List.prefix_refl _, trivial, ?_, fun _ => List.prefix_refl _, trivial, Obeys.nil⟩
  show (1 : ℤ) < 2
  decide

end TradingEdge.Analysis
