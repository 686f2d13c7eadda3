import Mathlib.Algebra.Order.Ring.Rat
import TradingEdge.Library.Dict
import TradingEdge.Library.Machine
import TradingEdge.Library.PrunedLog

/-!
# The client that sends alerts

`TelegramClient.send` drops an alert whose kind was noted less than a minute ago, and one that
comes while the circuit is open: for a quarter of an hour after more than nineteen messages went
through in a minute.  A message that passes waits for the rate limiter and for Telegram, while
others may call; it counts for the circuit when it is answered with 200.  Times are in seconds.
-/

set_option autoImplicit false

namespace TradingEdge.Program

open TradingEdge.Library

/-- SOURCE: notifications/telegram.py:22 -/
def dedupeSeconds : ℚ := 60

/-- SOURCE: notifications/telegram.py:23 -/
def circuitBreakerWindowS : ℚ := 60

/-- SOURCE: notifications/telegram.py:24 -/
def circuitBreakerMax : ℕ := 20

/-- SOURCE: notifications/telegram.py:25 -/
def circuitBreakerCooldownS : ℚ := 15 * 60

/-- SOURCE: notifications/telegram.py:28-31 -/
inductive Severity where
  | info
  | warn
  | crit
deriving DecidableEq

/-- SOURCE: notifications/telegram.py:34-38 -/
structure AlertEvent where
  kind : String
  text : String
  severity : Severity
deriving DecidableEq

/-- SOURCE: notifications/telegram.py:28-31, 88 -/
def Severity.value : Severity → String
  | .info => "INFO"
  | .warn => "WARN"
  | .crit => "CRIT"

/-- The text of the message of an alert.
SOURCE: notifications/telegram.py:88 -/
def AlertEvent.body (e : AlertEvent) : String := "[" ++ e.severity.value ++ "] " ++ e.text

/-- The fields of the client, and how many of its messages are on their way.
SOURCE: notifications/telegram.py:41-49 -/
structure TelegramClient where
  lastSeen : Dict String ℚ
  sentWindow : List ℚ
  suppressedUntil : ℚ
  inFlight : ℕ

/-- SOURCE: notifications/telegram.py:41-49 -/
def TelegramClient.new : TelegramClient := ⟨Dict.empty, [], 0, 0⟩

/-- SOURCE: notifications/telegram.py:67-73 -/
def TelegramClient.dedupe (c : TelegramClient) (kind : String) (now : ℚ) :
    TelegramClient × Bool :=
  let last := (c.lastSeen.get? kind).getD 0
  if now - last < dedupeSeconds then (c, true)
  else ({ c with lastSeen := c.lastSeen.set kind now }, false)

/-- SOURCE: notifications/telegram.py:55-65 -/
def TelegramClient.circuitOpen (c : TelegramClient) (now : ℚ) : TelegramClient × Bool :=
  if now < c.suppressedUntil then (c, true)
  else
    let cutoff := now - circuitBreakerWindowS
    let sentWindow := c.sentWindow.filter fun t => cutoff < t
    if circuitBreakerMax ≤ sentWindow.length then
      ({ c with sentWindow := sentWindow, suppressedUntil := now + circuitBreakerCooldownS }, true)
    else ({ c with sentWindow := sentWindow }, false)

/-- A call with the two times it reads, and the answer to a message that is on its way. -/
inductive AlertLabel where
  | send (event : AlertEvent) (dedupeAt circuitAt : ℚ)
  | answered (ok : Bool) (now : ℚ)

/-- What is noted down: the kind of an alert that is no repetition, the opening of the circuit, a
message sent out, and one that Telegram took. -/
inductive AlertNote where
  | seen (kind : String) (now : ℚ)
  | tripped (now : ℚ)
  | posted (body : String)
  | delivered (now : ℚ)
deriving DecidableEq

/-- What a call that is no repetition does.
SOURCE: notifications/telegram.py:82-93 -/
def TelegramClient.pass (c : TelegramClient) (event : AlertEvent) (now : ℚ) :
    TelegramClient × List AlertNote :=
  let (c', isOpen) := c.circuitOpen now
  if isOpen then (c', if now < c.suppressedUntil then [] else [.tripped now])
  else ({ c' with inFlight := c'.inFlight + 1 }, [.posted event.body])

/-- One step.  A failed message leaves no trace.
SOURCE: notifications/telegram.py:75-105 -/
def TelegramClient.step (c : TelegramClient) : AlertLabel → TelegramClient × List AlertNote
  | .send event dedupeAt circuitAt =>
    let (c', repeated) := c.dedupe event.kind dedupeAt
    if repeated then (c', [])
    else
      let (c'', notes) := c'.pass event circuitAt
      (c'', .seen event.kind dedupeAt :: notes)
  | .answered ok now =>
    match c.inFlight with
    | 0 => (c, [])
    | n + 1 =>
      if ok then ({ c with sentWindow := c.sentWindow ++ [now], inFlight := n }, [.delivered now])
      else ({ c with inFlight := n }, [])

/-- An enabled client: one that has a token and a chat. -/
def alertMachine : Machine TelegramClient AlertLabel AlertNote := ⟨TelegramClient.step⟩

end TradingEdge.Program
