import TradingEdge.Library.Dict
import TradingEdge.Library.Machine
import TradingEdge.Model.Text

/-!
# The Telegram command poller

`CommandPoller._handle_update` takes the messages of a chat bot one after the other.  A user's
`/killswitch` asks for a confirmation and the user's next text is read as the answer, if it comes
within two minutes.  `lower` stands for `str.lower`.  What a handler only asks of the API and what
it replies with an answer is left out; an answer that does not come ends a handler and changes
nothing here.
-/

set_option autoImplicit false

namespace TradingEdge.Program

open TradingEdge.Model TradingEdge.Library

/-- SOURCE: bots/telegram/commands.py:27 -/
def killswitchConfirm : String := "sí lo entiendo"

/-- `KILLSWITCH_FSM_TTL_S` in microseconds.
SOURCE: bots/telegram/commands.py:28 -/
def killswitchFsmTtl : ℤ := 120000000

/-- An update with the clock of the poller: `checkedAt` where a pending prompt is looked at and
`promptedAt` where a prompt is noted, in microseconds.  `session` is the chat's session of the
copilot, and `answered` says that what a handler reads before it posts is answered. -/
structure TelegramUpdate where
  userId : Option ℤ
  chatId : Option ℤ
  text : Option String
  checkedAt : ℤ
  promptedAt : ℤ
  session : Option String
  answered : Bool

/-- The body of a POST. -/
inductive PostBody where
  | empty
  | confirm (phrase : String)
  | service (name : String)
  | backtest (strategy paramsFile fromTs toTs requestedBy : String)
      (source polybotDb : Option String) (slugEncodesOpenTs : Option Bool)
  | chat (message : String)
deriving DecidableEq

/-- What the poller sends: a POST to the API, or a reply to a chat. -/
inductive BotEvent where
  | post (path : String) (body : PostBody)
  | reply (chatId : ℤ) (text : String)
deriving DecidableEq

/-- The handlers that commands are dispatched to. -/
inductive Command where
  | status
  | positions
  | trades
  | pnl
  | restart
  | pause
  | resume
  | killswitch
  | backtest
  | ask
  | askReset
  | help
deriving DecidableEq

/-- SOURCE: bots/telegram/commands.py:158-172 -/
def handlers : List (String × Command) :=
  [("/status", .status), ("/positions", .positions), ("/trades", .trades), ("/pnl", .pnl),
    ("/restart", .restart), ("/pause", .pause), ("/resume", .resume),
    ("/killswitch", .killswitch), ("/backtest", .backtest), ("/ask", .ask),
    ("/ask_reset", .askReset), ("/help", .help), ("/start", .help)]

/-- The ids of the authorized users and `str.lower`. -/
structure PollerConfig where
  authorized : List ℤ
  lower : String → String

/-! ## The handlers -/

/-- SOURCE: bots/telegram/commands.py:212-228 -/
def cmdHelp (chatId : ℤ) : List BotEvent :=
  [.reply chatId ("TEA bot — available commands:\n" ++
    "/status              engine + kill switch\n" ++
    "/positions           open paper positions\n" ++
    "/trades [N]          last N paper trades (default 10)\n" ++
    "/pnl [today|semana|mes]   pnl for the period (default today)\n" ++
    "/restart <service>   restart a whitelisted Docker service via API\n" ++
    "/pause <strategy>    pause a strategy\n" ++
    "/resume <strategy>   resume a strategy\n" ++
    "/killswitch          arm KILL_SWITCH (two-step)\n" ++
    "/backtest <strategy> <params_file> <from_ts> <to_ts> " ++
    "[source] [polybot_db] [slug_encodes_open_ts]\n" ++
    "/ask <pregunta>      research copilot (ADR 0010, read-only)\n" ++
    "/ask_reset           clear current ask session\n" ++
    "/help                this message")]

/-- `f"/api/v1/strategies/{name}/pause"` and its sibling for `resume`. -/
def strategyPath (name action : String) : String :=
  "/api/v1/strategies/" ++ (name ++ "/" ++ action)

/-- SOURCE: bots/telegram/commands.py:336-356 -/
def cmdPauseOrResume (action : String) (chatId : ℤ) (args : List Char) : List BotEvent :=
  match splitSpaces args with
  | [] => [.reply chatId ("usage: /" ++ action ++ " <strategy>")]
  | name :: _ => [.post (strategyPath (String.ofList name) action) .empty]

/-- SOURCE: bots/telegram/commands.py:320-334, bots/telegram/api_client.py -/
def cmdRestart (cfg : PollerConfig) (chatId : ℤ) (args : List Char) : List BotEvent :=
  let service := ((splitSpaces args).head?.map fun name => cfg.lower (String.ofList name)).getD ""
  if service = "" then [.reply chatId "usage: /restart <service>"]
  else [.post "/system/restart" (.service service)]

/-- SOURCE: bots/telegram/commands.py:302-318 -/
def cmdPnl (cfg : PollerConfig) (chatId : ℤ) (args : List Char) : List BotEvent :=
  match splitSpaces args with
  | [] => []
  | candidate :: _ =>
    if cfg.lower (String.ofList candidate) ∈ ["today", "semana", "mes"] then []
    else [.reply chatId "usage: /pnl [today|semana|mes]"]

/-- SOURCE: bots/telegram/commands.py:383-416 -/
def cmdBacktest (cfg : PollerConfig) (chatId userId : ℤ) (args : List Char) : List BotEvent :=
  match (splitSpaces args).map String.ofList with
  | strategy :: paramsFile :: fromTs :: toTs :: rest =>
    [.post "/api/v1/backtests" (.backtest strategy paramsFile fromTs toTs
      ("telegram:" ++ toString userId) rest[0]? rest[1]?
      (rest[2]?.map fun s => cfg.lower s ∈ ["1", "true", "yes"]))]
  | _ =>
    [.reply chatId ("usage: /backtest <strategy> <params_file> <from_ts> <to_ts> " ++
      "[source] [polybot_db] [slug_encodes_open_ts]")]

/-- SOURCE: bots/telegram/commands.py:464-493 -/
def cmdAsk (u : TelegramUpdate) (chatId : ℤ) (args : List Char) : List BotEvent :=
  if args = [] then
    [.reply chatId ("usage: /ask <pregunta>\nSin context_refs explícitos desde Telegram," ++
      " se inyectan defaults (paper_stats 7d por estrategia activa + " ++
      "últimos 10 trades). Usa /research/chat para pinear backtests/ADRs.")]
  else if u.answered then
    [.reply chatId "🧠 thinking…", .post "/api/v1/llm/chat" (.chat (String.ofList args))]
  else []

/-- SOURCE: bots/telegram/commands.py:513-524 -/
def cmdAskReset (u : TelegramUpdate) (chatId : ℤ) : List BotEvent :=
  if u.answered then
    match u.session with
    | some prior => [.post ("/api/v1/llm/reset?session_id=" ++ prior) .empty]
    | none => [.reply chatId "no active ask session"]
  else []

/-- SOURCE: bots/telegram/commands.py:358-366 -/
def cmdKillswitch (pending : Dict ℤ ℤ) (chatId userId promptedAt : ℤ) :
    Dict ℤ ℤ × List BotEvent :=
  (pending.set userId promptedAt,
    [.reply chatId ("⚠️ KILL_SWITCH arming. Reply with the exact phrase to confirm:\n    " ++
      killswitchConfirm ++ "\n(expires in 120s; any other reply cancels)")])

/-- SOURCE: bots/telegram/commands.py:368-381 -/
def cmdKillswitchConfirm (cfg : PollerConfig) (chatId : ℤ) (text : List Char) : List BotEvent :=
  if cfg.lower (String.ofList (strip text)) ≠ killswitchConfirm then
    [.reply chatId "phrase did not match. kill switch NOT armed."]
  else [.post "/api/v1/killswitch" (.confirm killswitchConfirm)]

/-! ## The dispatcher -/

/-- The name of the command a text starts with: up to a space or the name of the bot, in lower
case. -/
def commandName (cfg : PollerConfig) (text : List Char) : String :=
  cfg.lower (String.ofList ((partitionSpace text).1.takeWhile (· ≠ '@')))

/-- The command of a text.
SOURCE: bots/telegram/commands.py:151-175 -/
def commandOf (cfg : PollerConfig) (text : List Char) : Option Command :=
  if text.head? = some '/' then handlers.lookup (commandName cfg text) else none

/-- SOURCE: bots/telegram/commands.py:151-177 -/
def dispatch (cfg : PollerConfig) (pending : Dict ℤ ℤ) (u : TelegramUpdate)
    (userId chatId : ℤ) (text : List Char) : Dict ℤ ℤ × List BotEvent :=
  let args := strip (partitionSpace text).2
  match commandOf cfg text with
  | none =>
    (pending,
      if text.head? = some '/' then
        [.reply chatId ("unknown command: " ++ commandName cfg text ++ "\n/help for list")]
      else [])
  | some .killswitch => cmdKillswitch pending chatId userId u.promptedAt
  | some .pause => (pending, cmdPauseOrResume "pause" chatId args)
  | some .resume => (pending, cmdPauseOrResume "resume" chatId args)
  | some .restart => (pending, cmdRestart cfg chatId args)
  | some .pnl => (pending, cmdPnl cfg chatId args)
  | some .backtest => (pending, cmdBacktest cfg chatId userId args)
  | some .ask => (pending, cmdAsk u chatId args)
  | some .askReset => (pending, cmdAskReset u chatId)
  | some .status => (pending, [])
  | some .positions => (pending, [])
  | some .trades => (pending, [])
  | some .help => (pending, cmdHelp chatId)

/-- SOURCE: bots/telegram/commands.py:127-177 -/
def handleUpdate (cfg : PollerConfig) (pending : Dict ℤ ℤ) (u : TelegramUpdate) :
    Dict ℤ ℤ × List BotEvent :=
  let text := strip (u.text.getD "").toList
  match u.userId, u.chatId with
  | some userId, some chatId =>
    if text = [] then (pending, [])
    else if userId ∉ cfg.authorized then (pending, [.reply chatId "⛔ not authorized"])
    else
      match pending.get? userId with
      | some promptedAt =>
        if u.checkedAt - promptedAt < killswitchFsmTtl then
          (pending.pop userId, cmdKillswitchConfirm cfg chatId text)
        else dispatch cfg (pending.pop userId) u userId chatId text
      | none => dispatch cfg pending u userId chatId text
  | _, _ => (pending, [])

/-- The poller: one update after the other.
SOURCE: bots/telegram/commands.py:88-106 -/
def pollerMachine (cfg : PollerConfig) : Machine (Dict ℤ ℤ) TelegramUpdate BotEvent :=
  ⟨handleUpdate cfg⟩

end TradingEdge.Program
