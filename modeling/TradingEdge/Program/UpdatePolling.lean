import TradingEdge.Library.AckFeed
import TradingEdge.Program.TelegramCommands

/-!
# The command poller and the Bot API

`CommandPoller.run` asks the Bot API for updates, handles each one it got and asks again.  The
offset it asks with and the pending confirmations are fields of the poller and start anew with it.

The Bot API is a party of its own: a request with an offset confirms the updates below it, which
it forgets; it answers with some of the first updates that are left; and it forgets an update that
nobody confirms in a day.  The machine is that of an enabled poller.
-/

set_option autoImplicit false

namespace TradingEdge.Program

open TradingEdge.Model TradingEdge.Library

/-- An update as the Bot API gives it out. -/
structure BotUpdate where
  updateId : ℤ
  userId : Option ℤ
  chatId : Option ℤ
  text : Option String

/-- What the poller finds when it handles an update: its clock, the chat's session of the copilot
and whether what a handler reads first is answered. -/
structure HandlingContext where
  checkedAt : ℤ
  promptedAt : ℤ
  session : Option String
  answered : Bool

def BotUpdate.during (u : BotUpdate) (c : HandlingContext) : TelegramUpdate :=
  ⟨u.userId, u.chatId, u.text, c.checkedAt, c.promptedAt, c.session, c.answered⟩

/-- The answer to a request: an exception, a body that is not `ok`, or a list of updates. -/
inductive GetUpdatesAnswer where
  | raised
  | notOk
  | result (updates : List BotUpdate)

/-- The updates of an answer.
SOURCE: bots/telegram/commands.py:119-125 -/
def GetUpdatesAnswer.updates : GetUpdatesAnswer → List BotUpdate
  | .raised => []
  | .notOk => []
  | .result updates => updates

/-- The offset after an answer.
SOURCE: bots/telegram/commands.py:119-125 -/
def offsetAfter (offset : ℤ) (answer : GetUpdatesAnswer) : ℤ :=
  match answer.updates.getLast? with
  | none => offset
  | some u => u.updateId + 1

/-- What the Bot API keeps when a request comes in.  The request has an offset only if the
poller's is not zero.
SOURCE: bots/telegram/commands.py:110-115 -/
def confirmUpdates (offset : ℤ) (unconfirmed : List BotUpdate) : List BotUpdate :=
  if offset ≠ 0 then unconfirmed.filter fun u => offset ≤ u.updateId else unconfirmed

/-- The Bot API and the poller: the updates that are not confirmed and the last id given out; the
offset, the fetched updates still to handle and the pending confirmations. -/
structure UpdatePolling where
  unconfirmed : List BotUpdate
  lastId : ℤ
  offset : ℤ
  updates : List BotUpdate
  pending : Dict ℤ ℤ

/-- A message comes in, the Bot API forgets its oldest update, the poller asks (the request comes
in or not), handles its next update, or is started anew. -/
inductive PollingLabel where
  | message (u : BotUpdate)
  | forget
  | getUpdates (received : Bool) (answer : GetUpdatesAnswer)
  | handleUpdate (c : HandlingContext)
  | restart

/-- What is noted down of a step, with what the handler sends. -/
abbrev PollingNote : Type := AckFeed.Note BotUpdate HandlingContext BotEvent

/-- SOURCE: bots/telegram/commands.py:60-79 -/
def UpdatePolling.restarted (s : UpdatePolling) : UpdatePolling :=
  { s with offset := 0, updates := [], pending := Dict.empty }

/-- One step.  The poller asks only when it has handled what it got before.
SOURCE: bots/telegram/commands.py:88-125 -/
def UpdatePolling.step (cfg : PollerConfig) (s : UpdatePolling) :
    PollingLabel → UpdatePolling × List PollingNote
  | .message u =>
    ({ s with unconfirmed := s.unconfirmed ++ [u], lastId := u.updateId }, [.arrived u])
  | .forget =>
    match s.unconfirmed with
    | [] => (s, [])
    | u :: rest => ({ s with unconfirmed := rest }, [.expired u])
  | .getUpdates received answer =>
    match s.updates with
    | [] =>
      ({ s with
          unconfirmed := if received then confirmUpdates s.offset s.unconfirmed else s.unconfirmed
          offset := offsetAfter s.offset answer
          updates := answer.updates },
        if received then [.asked] else [])
    | _ :: _ => (s, [])
  | .handleUpdate c =>
    match s.updates with
    | [] => (s, [])
    | u :: rest =>
      ({ s with updates := rest, pending := (handleUpdate cfg s.pending (u.during c)).1 },
        [.handled u c (handleUpdate cfg s.pending (u.during c)).2])
  | .restart => (s.restarted, [.restarted])

def updatePollingMachine (cfg : PollerConfig) : Machine UpdatePolling PollingLabel PollingNote :=
  ⟨UpdatePolling.step cfg⟩

/-- Before the first message. -/
def UpdatePolling.fresh : UpdatePolling := ⟨[], 0, 0, [], Dict.empty⟩

/-- What the Bot API documents: ids are positive, and they increase unless no update comes for a week,
after which the next id is random; and an answer to a request that came in lists the first of the
updates that are left. -/
def BotApi (s : UpdatePolling) : PollingLabel → Prop
  | .message u => s.lastId < u.updateId
  | .getUpdates received answer =>
    s.updates = [] →
      if received then answer.updates <+: confirmUpdates s.offset s.unconfirmed
      else answer.updates = []
  | _ => True

end TradingEdge.Program
