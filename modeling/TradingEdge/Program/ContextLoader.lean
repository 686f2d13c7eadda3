import TradingEdge.Model.Paths
import TradingEdge.Model.Text
import TradingEdge.Program.LlmTurns

/-!
# The context loader

`llm/context_loader.py`: the texts that a reference of the user names, from the database and from
files, cut to a budget and put between the tags of a fence.  What the database answers, what stands
on the disk and what an exception says are arguments.  A load also tells which files it read.
-/

set_option autoImplicit false

namespace TradingEdge.Program

open TradingEdge.Model

/-! ## References -/

/-- SOURCE: llm/context_loader.py:32-38 -/
def byteBudget : List (String × ℕ) :=
  [("backtest", 16000), ("strategy", 24000), ("recent_trades", 6000), ("paper_stats", 2000),
    ("adr", 8000)]

def allowedTypes : List String := byteBudget.map Prod.fst

/-- Why a reference is refused. -/
inductive RefError where
  | typeNotAllowed (t : String)
  | idEmpty
deriving DecidableEq

/-- The entries `type` and `id` of a request; `lower` is `str.lower` with all its letters.
SOURCE: llm/context_loader.py:52-60 -/
def ContextRef.parse (lower : List Char → List Char) (obj : Option String × Option String) :
    Except RefError ContextRef :=
  let t := String.ofList (lower (strip (obj.1.getD "").toList))
  let i := String.ofList (strip (obj.2.getD "").toList)
  if t ∉ allowedTypes then .error (.typeNotAllowed t)
  else if i = "" then .error .idEmpty
  else .ok ⟨t, i⟩

/-! ## Rendering -/

/-- SOURCE: llm/context_loader.py:63-67 -/
structure LoadedContext where
  ref : ContextRef
  body : List Char
  truncatedBytes : ℕ
deriving DecidableEq

/-- SOURCE: llm/context_loader.py:77-78 -/
def escAttr (v : List Char) : List Char :=
  v.flatMap fun c =>
    if c = '&' then "&amp;".toList
    else if c = '"' then "&quot;".toList
    else if c = '<' then "&lt;".toList
    else [c]

/-- The tag in front of the body. -/
def LoadedContext.opening (c : LoadedContext) : List Char :=
  "<context type=\"".toList ++ c.ref.type.toList ++ "\" id=\"".toList ++
    escAttr c.ref.id.toList ++ "\">\n".toList

/-- What is said behind a body that was cut. -/
def LoadedContext.suffix (c : LoadedContext) : List Char :=
  if c.truncatedBytes = 0 then []
  else "\n[truncated ".toList ++ Nat.toDigits 10 c.truncatedBytes ++ " bytes]".toList

/-- SOURCE: llm/context_loader.py:69-74 -/
def LoadedContext.render (c : LoadedContext) : List Char :=
  c.opening ++ c.body ++ c.suffix ++ "\n</context>".toList

/-- SOURCE: llm/context_loader.py:42-44 -/
def stripChars (c : Char) : Bool :=
  (c.toNat < 32 ∧ c.toNat ≠ 9 ∧ c.toNat ≠ 10 ∧ c.toNat ≠ 13) ∨ c.toNat = 127

/-- SOURCE: llm/context_loader.py:81-82 -/
def sanitize (s : List Char) : List Char := s.filter fun c => !stripChars c

/-- SOURCE: llm/context_loader.py:85-89 -/
def budgetTrim (body : List Char) (budget : ℕ) : List Char × ℕ :=
  if body.length ≤ budget then (body, 0) else (body.take budget, body.length - budget)

/-! ## What a load reads -/

/-- A value of a row; of the types that `json` does not write only their `str` matters. -/
inductive DbValue where
  | null
  | int (n : ℤ)
  | text (s : List Char)
  | other (s : List Char)

/-- A row with the names of its columns. -/
abbrev DbRow := List (List Char × DbValue)

/-- A row of `research.backtests`.
SOURCE: llm/context_loader.py:124-130 -/
structure BacktestRow where
  id : List Char
  strategyName : List Char
  startedAt : List Char
  endedAt : Option (List Char)
  status : List Char
  datasetFrom : List Char
  datasetTo : List Char
  paramsHash : List Char
  metrics : Option (List Char)
  reportPath : Option (List Char)

/-- The sums of the fills, the last three as `json` writes a float.
SOURCE: llm/context_loader.py:254-277 -/
structure PaperStatsRow where
  nTrades : ℤ
  totalPnl : List Char
  avgWin : List Char
  avgLoss : List Char

/-- The settings, the disk and the answers of the database; an exception is its message.  `uuid`
is `uuid.UUID`, and `osError` what the system says about a path that is no file. -/
structure Surroundings where
  includeSource : Bool
  cwd : Location
  cwd_proper : ['.', '.'] ∉ cwd
  disk : Disk
  osError : PurePath → List Char
  uuid : List Char → Option (List Char)
  backtest : List Char → Except (List Char) (Option BacktestRow)
  backtestTrades : List Char → Except (List Char) (List DbRow)
  recentTrades : Option (List Char) → ℤ → Except (List Char) (List DbRow)
  paperStats : List Char → ℤ → Except (List Char) PaperStatsRow

/-- The working directory of the container. -/
theorem proper_app : ['.', '.'] ∉ ["app".toList] := by decide

/-- A computation that reads files and may raise. -/
structure Loading (α : Type) where
  reads : List Location
  result : Except (List Char) α

namespace Loading

variable {α β : Type}

def ok (a : α) : Loading α := ⟨[], .ok a⟩

def raise (message : List Char) : Loading α := ⟨[], .error message⟩

def ofExcept (x : Except (List Char) α) : Loading α := ⟨[], x⟩

def andThen (x : Loading α) (f : α → Loading β) : Loading β :=
  match x.result with
  | .ok a => ⟨x.reads ++ (f a).reads, (f a).result⟩
  | .error message => ⟨x.reads, .error message⟩

instance : Monad Loading where
  pure := ok
  bind := andThen

end Loading

/-- `Path.is_file()`. -/
def Surroundings.isFile (s : Surroundings) (p : PurePath) : Bool := s.disk.isFile s.cwd p

/-- `Path.read_text(errors="replace")`. -/
def Surroundings.readText (s : Surroundings) (p : PurePath) : Loading (List Char) :=
  match s.disk.locate s.cwd p with
  | none => .raise (s.osError p)
  | some loc =>
    match s.disk.fileAt loc with
    | none => .raise (s.osError p)
    | some (.error message) => .raise message
    | some (.ok text) => ⟨[loc], .ok text⟩

/-! ## `json.dumps` with an indent of two -/

/-- The escapes of a string when `ensure_ascii` is off. -/
def jsonChar (c : Char) : List Char :=
  if c = '"' then "\\\"".toList
  else if c = '\\' then "\\\\".toList
  else if c = '\n' then "\\n".toList
  else if c = '\r' then "\\r".toList
  else if c = '\t' then "\\t".toList
  else if c.toNat = 8 then "\\b".toList
  else if c.toNat = 12 then "\\f".toList
  else if c.toNat < 16 then "\\u000".toList ++ Nat.toDigits 16 c.toNat
  else if c.toNat < 32 then "\\u00".toList ++ Nat.toDigits 16 c.toNat
  else [c]

def jsonString (s : List Char) : List Char := ['"'] ++ s.flatMap jsonChar ++ ['"']

def jsonInt (n : ℤ) : List Char :=
  if 0 ≤ n then Nat.toDigits 10 n.natAbs else '-' :: Nat.toDigits 10 n.natAbs

/-- A value, with `default=str`. -/
def DbValue.json : DbValue → List Char
  | .null => "null".toList
  | .int n => jsonInt n
  | .text s => jsonString s
  | .other s => jsonString s

/-- `str(v) if v is not None else None`, as json. -/
def DbValue.jsonOfStr : DbValue → List Char
  | .null => "null".toList
  | .int n => jsonString (jsonInt n)
  | .text s => jsonString s
  | .other s => jsonString s

def jsonOptional (s : Option (List Char)) : List Char :=
  match s with
  | none => "null".toList
  | some s => jsonString s

/-- A new line, and `indent` spaces. -/
def jsonLine (indent : ℕ) : List Char := '\n' :: List.replicate indent ' '

/-- Items that are already written, between brackets and on lines of their own. -/
def jsonItems (left right : Char) (indent : ℕ) (items : List (List Char)) : List Char :=
  if items.isEmpty then [left, right]
  else [left] ++ jsonLine (indent + 2) ++ (',' :: jsonLine (indent + 2)).intercalate items ++
    jsonLine indent ++ [right]

def jsonArray (indent : ℕ) (items : List (List Char)) : List Char := jsonItems '[' ']' indent items

def jsonObject (indent : ℕ) (fields : List (List Char × List Char)) : List Char :=
  jsonItems '\x7b' '\x7d' indent (fields.map fun f => jsonString f.1 ++ ": ".toList ++ f.2)

/-! ## The loaders -/

/-- `str.splitlines()`; a carriage return and a line feed are one end of a line. -/
def splitlinesFrom : List Char → List Char → List (List Char)
  | [], line => if line.isEmpty then [] else [line.reverse]
  | '\r' :: '\n' :: cs, line => line.reverse :: splitlinesFrom cs []
  | c :: cs, line =>
      if c.toNat ∈ [10, 11, 12, 13, 28, 29, 30, 133, 8232, 8233] then
        line.reverse :: splitlinesFrom cs []
      else splitlinesFrom cs (c :: line)

def splitlines (cs : List Char) : List (List Char) := splitlinesFrom cs []

/-- The fields of a backtest, with its first trades.
SOURCE: llm/context_loader.py:139-155 -/
def backtestPayload (row : BacktestRow) (trades : List DbRow) : List Char :=
  let trade (r : DbRow) := jsonObject 4 (r.map fun f => (f.1, f.2.json))
  jsonObject 0
    [("id".toList, jsonString row.id), ("strategy_name".toList, jsonString row.strategyName),
      ("started_at".toList, jsonString row.startedAt),
      ("ended_at".toList, jsonOptional row.endedAt), ("status".toList, jsonString row.status),
      ("dataset_from".toList, jsonString row.datasetFrom),
      ("dataset_to".toList, jsonString row.datasetTo),
      ("params_hash".toList, jsonString row.paramsHash),
      ("metrics".toList, jsonOptional row.metrics),
      ("top_trades".toList, jsonArray 2 (trades.map trade))]

/-- What is added for a report that is a file: its first lines, or why it cannot be read.
SOURCE: llm/context_loader.py:157-166 -/
def reportSummary (s : Surroundings) (reportPath : List Char) : Loading (List Char) :=
  let rp := PurePath.ofText reportPath
  if reportPath ≠ [] ∧ s.isFile rp then
    let read := s.readText rp
    match read.result with
    | .ok text => ⟨read.reads, .ok ("\n\n[report summary — first 50 lines]\n".toList ++
        ['\n'].intercalate ((splitlines text).take 50))⟩
    | .error e => ⟨read.reads, .ok ("\n\n[report unreachable: ".toList ++ e ++ "]".toList)⟩
  else .ok []

/-- The text of a backtest before it is cut; `none` where there is none.
SOURCE: llm/context_loader.py:118-166 -/
def backtestText (s : Surroundings) (ref : ContextRef) : Loading (Option (List Char)) :=
  match s.uuid ref.id.toList with
  | none => .raise ("backtest id is not a uuid: ".toList ++ ref.id.toList)
  | some id => do
    let row ← .ofExcept (s.backtest id)
    match row with
    | none => return none
    | some row =>
      let trades ← .ofExcept (s.backtestTrades id)
      let report ← reportSummary s (row.reportPath.getD [])
      return some (backtestPayload row trades ++ report)

/-- SOURCE: llm/context_loader.py:174-175 -/
def tomlPath (ref : ContextRef) : PurePath :=
  (PurePath.ofText "config/strategies".toList).joinpath
    (.ofText ("pbt5m_".toList ++ ref.id.toList ++ ".toml".toList))

def srcPath (ref : ContextRef) : PurePath :=
  (PurePath.ofText "src/trading/strategies".toList).joinpath
    (.ofText (ref.id.toList ++ ".py".toList))

/-- A file with a headline, or that it is missing. -/
def filePart (s : Surroundings) (label : List Char) (p : PurePath) : Loading (List Char) :=
  if s.isFile p then do
    let text ← s.readText p
    return "[".toList ++ label ++ "] ".toList ++ p.text ++ "\n".toList ++ text
  else return "[".toList ++ label ++ " missing at ".toList ++ p.text ++ "]".toList

/-- The source, if the settings allow it to be sent.
SOURCE: llm/context_loader.py:183-192 -/
def sourcePart (s : Surroundings) (ref : ContextRef) : Loading (List Char) :=
  if s.includeSource then filePart s "source".toList (srcPath ref)
  else .ok ("[source omitted — llm_include_source=false. Only params + metadata".toList ++
    " are shared with the provider.]".toList)

/-- SOURCE: llm/context_loader.py:171-193 -/
def strategyText (s : Surroundings) (ref : ContextRef) : Loading (Option (List Char)) := do
  let params ← filePart s "params toml".toList (tomlPath ref)
  let source ← sourcePart s ref
  return some ("\n\n".toList.intercalate ["[strategy id] ".toList ++ ref.id.toList, params, source])

/-- The text in front of the first colon and the one behind it. -/
def partitionColon (cs : List Char) : List Char × List Char :=
  (cs.takeWhile (· ≠ ':'), (cs.dropWhile (· ≠ ':')).drop 1)

/-- A count behind the colon, between one and a cap. -/
def countOf (text : List Char) (cap default_ : ℤ) : ℤ :=
  if text = [] then default_
  else
    match parseInt text with
    | some n => max 1 (min cap n)
    | none => default_

/-- SOURCE: llm/context_loader.py:197-241 -/
def recentTradesText (s : Surroundings) (ref : ContextRef) : Loading (Option (List Char)) := do
  let (strategyId, nStr) := partitionColon ref.id.toList
  let wildcard := strategyId ∈ ["".toList, "*".toList, "all".toList]
  let rows ← .ofExcept
    (s.recentTrades (if wildcard then none else some strategyId) (countOf nStr 50 20))
  return some (jsonArray 0 (rows.map fun r => jsonObject 2 (r.map fun f => (f.1, f.2.jsonOfStr))))

/-- SOURCE: llm/context_loader.py:246-278 -/
def paperStatsText (s : Surroundings) (ref : ContextRef) : Loading (Option (List Char)) := do
  let (strategyId, dStr) := partitionColon ref.id.toList
  let days := countOf dStr 60 7
  let row ← .ofExcept (s.paperStats strategyId days)
  return some (jsonObject 0
    [("strategy_id".toList, jsonString strategyId), ("window_days".toList, jsonInt days),
      ("n_trades".toList, jsonInt row.nTrades), ("total_pnl".toList, row.totalPnl),
      ("avg_win".toList, row.avgWin), ("avg_loss".toList, row.avgLoss)])

/-- `str.zfill(4)`: a sign stays in front of the zeros. -/
def zfill4 (cs : List Char) : List Char :=
  let zeros := List.replicate (4 - cs.length) '0'
  match cs with
  | '+' :: rest => '+' :: (zeros ++ rest)
  | '-' :: rest => '-' :: (zeros ++ rest)
  | cs => zeros ++ cs

/-- SOURCE: llm/context_loader.py:284-285 -/
def adrPattern (ref : ContextRef) : List Char := zfill4 ref.id.toList ++ "-*.md".toList

/-- SOURCE: llm/context_loader.py:283-288 -/
def adrText (s : Surroundings) (ref : ContextRef) : Loading (Option (List Char)) := do
  let found ← .ofExcept
    (s.disk.glob s.cwd (.ofText "Docs/decisions".toList) (adrPattern ref))
  match sortedPaths found with
  | [] => return none
  | first :: _ =>
    let body ← s.readText first
    return some body

/-- The context of a text: it is stripped and cut to the budget of its type.
SOURCE: llm/context_loader.py:167-168, 193-194, 242-243, 279-280, 289-290 -/
def fitted (ref : ContextRef) (type : String) : Option (List Char) → LoadedContext
  | none => ⟨ref, "[not found]".toList, 0⟩
  | some text =>
      let trimmed := budgetTrim (sanitize text) ((byteBudget.lookup type).getD 0)
      ⟨ref, trimmed.1, trimmed.2⟩

def loadBacktest (s : Surroundings) (ref : ContextRef) : Loading LoadedContext :=
  fitted ref "backtest" <$> backtestText s ref

def loadStrategy (s : Surroundings) (ref : ContextRef) : Loading LoadedContext :=
  fitted ref "strategy" <$> strategyText s ref

def loadRecentTrades (s : Surroundings) (ref : ContextRef) : Loading LoadedContext :=
  fitted ref "recent_trades" <$> recentTradesText s ref

def loadPaperStats (s : Surroundings) (ref : ContextRef) : Loading LoadedContext :=
  fitted ref "paper_stats" <$> paperStatsText s ref

def loadAdr (s : Surroundings) (ref : ContextRef) : Loading LoadedContext :=
  fitted ref "adr" <$> adrText s ref

/-- SOURCE: llm/context_loader.py:104-115 -/
def loadOne (s : Surroundings) (ref : ContextRef) : Loading LoadedContext :=
  if ref.type = "backtest" then loadBacktest s ref
  else if ref.type = "strategy" then loadStrategy s ref
  else if ref.type = "recent_trades" then loadRecentTrades s ref
  else if ref.type = "paper_stats" then loadPaperStats s ref
  else if ref.type = "adr" then loadAdr s ref
  else .raise ("unknown context type ".toList ++ ref.type.toList)

/-- A load that raises becomes a context that says so. -/
def loadContext (s : Surroundings) (ref : ContextRef) : LoadedContext :=
  match (loadOne s ref).result with
  | .ok loaded => loaded
  | .error e => ⟨ref, "[load failed: ".toList ++ e ++ "]".toList, 0⟩

/-- SOURCE: llm/context_loader.py:92-101 -/
def loadContexts (s : Surroundings) (refs : List ContextRef) : List LoadedContext :=
  refs.map (loadContext s)

end TradingEdge.Program
