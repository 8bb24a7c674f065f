import CodexHost.Source.ClaudeCode.NativeMessage

/-!
# The Items of a Claude Turn

`ClaudeToolLifecycle` of `packages/adapters/claude-code/src/tool-lifecycle.ts`,
`ClaudeSubagentLifecycle` of `subagent-lifecycle.ts` and `ClaudeWorkflowLifecycle` of
`workflow-lifecycle.ts`, fed with the events of the accumulator. New Item ids are counted.
-/
namespace CodexHost.Source.ClaudeCode
open Foundation

inductive ClaudeTranscriptItemKind where
  | agentMessage
  | reasoning
  | tool
  deriving DecidableEq, Repr

def ClaudeTranscriptItemKind.text : ClaudeTranscriptItemKind → String
  | .agentMessage => "agentMessage"
  | .reasoning => "reasoning"
  | .tool => "tool"

def claudeTranscriptItemId (nativeTurnKey : String) (kind : ClaudeTranscriptItemKind)
    (ordinal : Nat) : String :=
  "claude-item-v2-" ++ nativeTurnKey ++ "-" ++ kind.text ++ "-" ++ ordinal.repr

inductive HostItem where
  | agentMessage (itemId : String) (text : Utf16)
  | reasoning (itemId : String) (text : Utf16)
  | commandExecution (itemId : String) (command : Utf16)
  | toolExecution (itemId toolName : String) (arguments : JsonValue)

def HostItem.itemId : HostItem → String
  | .agentMessage itemId _ => itemId
  | .reasoning itemId _ => itemId
  | .commandExecution itemId _ => itemId
  | .toolExecution itemId _ _ => itemId

/-- `value.command`, when it is a string of an object. -/
def commandOf : JsonValue → Option Utf16
  | .object members =>
    match members.lookup (Utf16.ofString "command") with
    | some (.string command) => some command
    | _ => none
  | _ => none

def isClaudeTaskTool (toolName : String) : Bool :=
  toolName = "TaskCreate" || toolName = "TaskUpdate" || toolName = "TaskList"

structure ActiveTool where
  item : HostItem
  nativeName : String

structure ToolLifecycle where
  nativeTurnKey : String
  tools : OrderedMap String ActiveTool
  toolOrdinal : Nat
  /-- The Items that were started, each with its call; for the properties only. -/
  started : List (String × HostItem)

namespace ToolLifecycle

def new (nativeTurnKey : String) : ToolLifecycle := ⟨nativeTurnKey, .empty, 0, []⟩

variable (l : ToolLifecycle)

/-- The Item of a tool: a shell command, or a tool execution. -/
def itemOf (itemId toolName : String) (arguments : JsonValue) : HostItem :=
  match if toolName = "Bash" then (commandOf arguments).filter (· ≠ []) else none with
  | some command => .commandExecution itemId command
  | none =>
    if isClaudeTaskTool toolName then .toolExecution itemId "Todo" (.object [])
    else .toolExecution itemId toolName arguments

def start (callId toolName : String) (arguments : JsonValue) : Except String ToolLifecycle :=
  if l.tools.has callId then .error "Claude Code Tool started more than once"
  else
    let itemId := claudeTranscriptItemId l.nativeTurnKey .tool (l.toolOrdinal + 1)
    let item := itemOf itemId toolName arguments
    .ok { l with
      toolOrdinal := l.toolOrdinal + 1
      tools := l.tools.set callId ⟨item, toolName⟩
      started := l.started ++ [(callId, item)] }

def complete (callId toolName : String) : Except String ToolLifecycle :=
  match l.tools.get? callId with
  | none => .error "Claude Code Tool completion references an unknown Tool"
  | some tool =>
    if tool.nativeName ≠ toolName then
      .error "Claude Code Tool completion references an unknown Tool"
    else .ok { l with tools := l.tools.delete callId }

/-- `progress` only lengthens the duration of the Item. -/
def progress (callId : String) : Except String ToolLifecycle :=
  if l.tools.has callId then .ok l
  else .error "Claude Code Tool Progress references an unknown Tool"

end ToolLifecycle

structure HostSubagentState where
  subagentId : String
  nativeSubagentId : Option String
  background : Bool
  status : HostSubagentStatus
  deriving DecidableEq, Repr

structure SubagentDelegation where
  itemId : Nat
  operation : SubagentOperation
  subagent : HostSubagentState
  deriving DecidableEq, Repr

/-- What is emitted about an Item. -/
inductive ItemEvent where
  | started (itemId : Nat)
  | updated (itemId : Nat)
  | completed (itemId : Nat)
  deriving DecidableEq, Repr

structure SubagentLifecycle where
  delegations : OrderedMap String SubagentDelegation
  nextItemId : Nat
  emitted : List ItemEvent

namespace SubagentLifecycle

def new : SubagentLifecycle := ⟨.empty, 0, []⟩

variable (l : SubagentLifecycle)

def start (callId : String) (operation : SubagentOperation) (background : Bool)
    (nativeSubagentId : Option String) : Except String SubagentLifecycle :=
  if l.delegations.has callId then
    .error "Claude Code Subagent delegation started more than once"
  else
    let subagent : HostSubagentState :=
      ⟨nativeSubagentId.getD callId, nativeSubagentId, background, .running⟩
    .ok { l with
      delegations := l.delegations.set callId ⟨l.nextItemId, operation, subagent⟩
      nextItemId := l.nextItemId + 1
      emitted := l.emitted ++ [.started l.nextItemId] }

def update (callId : String) (status : HostSubagentStatus) (nativeSubagentId : Option String) :
    SubagentLifecycle :=
  match l.delegations.get? callId with
  | none => l
  | some active =>
    let subagent := { active.subagent with
      status := status
      nativeSubagentId := nativeSubagentId.orElse fun _ => active.subagent.nativeSubagentId }
    { l with
      delegations := l.delegations.set callId { active with subagent := subagent }
      emitted := l.emitted ++ [.updated active.itemId] }

def complete (callId : String) : Except String SubagentLifecycle :=
  match l.delegations.get? callId with
  | none => .error "Claude Code Subagent completion references an unknown delegation"
  | some active => .ok { l with
      delegations := l.delegations.delete callId
      emitted := l.emitted ++ [.updated active.itemId, .completed active.itemId] }

end SubagentLifecycle

structure WorkflowRun where
  taskId : Option String
  item : Option Nat
  agents : OrderedMap Nat HostSubagentState
  launched : Bool

structure WorkflowLifecycle where
  runs : OrderedMap String WorkflowRun
  nextItemId : Nat
  emitted : List ItemEvent

def agentStatus : WorkflowAgentState → HostSubagentStatus
  | .queued => .pending
  | .running => .running
  | .done => .completed
  | .error => .failed

def agentSnapshot (callId : String) (agent : ClaudeWorkflowAgent)
    (previous : Option HostSubagentState) : HostSubagentState :=
  ⟨callId ++ ":" ++ agent.index.repr,
    agent.agentId.orElse fun _ => previous.bind (·.nativeSubagentId), true, agentStatus agent.state⟩

namespace WorkflowLifecycle

def new : WorkflowLifecycle := ⟨.empty, 0, []⟩

variable (l : WorkflowLifecycle)

def start (callId : String) : Except String WorkflowLifecycle :=
  if l.runs.has callId then .error "Claude Code Workflow started more than once"
  else .ok { l with runs := l.runs.set callId ⟨none, none, .empty, false⟩ }

/-- `#open` -/
def «open» (callId : String) (run : WorkflowRun) : WorkflowLifecycle × WorkflowRun :=
  let run := { run with item := some l.nextItemId }
  ({ l with
    runs := l.runs.set callId run
    nextItemId := l.nextItemId + 1
    emitted := l.emitted ++ [.started l.nextItemId] }, run)

def update (callId : String) (taskId : Option String) (agents : List ClaudeWorkflowAgent) :
    WorkflowLifecycle :=
  match l.runs.get? callId with
  | none => l
  | some run =>
    let changed := agents.foldl (fun (known : OrderedMap Nat HostSubagentState × Bool) agent =>
      let next := agentSnapshot callId agent (known.1.get? agent.index)
      if known.1.get? agent.index = some next then known else (known.1.set agent.index next, true))
      (run.agents, false)
    let run := { run with taskId := taskId.orElse fun _ => run.taskId, agents := changed.1 }
    let l := { l with runs := l.runs.set callId run }
    match run.item with
    | none => (l.open callId run).1
    | some itemId => if changed.2 then { l with emitted := l.emitted ++ [.updated itemId] } else l

def complete (callId : String) (run : WorkflowRun) : WorkflowLifecycle :=
  { l with
    runs := l.runs.delete callId
    emitted := l.emitted ++ (run.item.map .completed).toList }

def launched (callId : String) (background : Bool) (taskId : Option String)
    (cancellationRequested : Bool) : WorkflowLifecycle :=
  match l.runs.get? callId with
  | none => l
  | some run =>
    let run := { run with taskId := taskId.orElse fun _ => run.taskId }
    let (l, run) := if run.item.isSome then (l, run) else l.open callId run
    if background && !cancellationRequested then
      { l with runs := l.runs.set callId { run with launched := true } }
    else l.complete callId run

/-- `settle`: the run of the call, else the one with this task id. -/
def settle (settlement : Settlement) : WorkflowLifecycle :=
  let byCall := settlement.callId.bind fun callId => (l.runs.get? callId).map fun run => (callId, run)
  match byCall.orElse fun _ =>
    l.runs.entries.find? fun entry => entry.2.taskId = some settlement.nativeSubagentId with
  | none => l
  | some (callId, run) => l.complete callId run

end WorkflowLifecycle

/-- The lifecycles of a Turn. -/
structure TurnItems where
  tools : ToolLifecycle
  subagents : SubagentLifecycle
  workflows : WorkflowLifecycle

namespace TurnItems

def new (nativeTurnKey : String) : TurnItems := ⟨.new nativeTurnKey, .new, .new⟩

/-- The Item events of `#handleTurnEvent`. -/
def handle (cancellationRequested : Bool) (items : TurnItems) (event : ClaudeNativeEvent) :
    Except String TurnItems :=
  match event with
  | .toolStarted callId toolName arguments =>
    (items.tools.start callId toolName arguments).map fun tools => { items with tools := tools }
  | .toolProgress callId _ =>
    (items.tools.progress callId).map fun tools => { items with tools := tools }
  | .toolCompleted callId toolName _ =>
    (items.tools.complete callId toolName).map fun tools => { items with tools := tools }
  | .subagentStarted callId operation background nativeSubagentId =>
    (items.subagents.start callId operation background nativeSubagentId).map fun subagents =>
      { items with subagents := subagents }
  | .subagentUpdated callId status nativeSubagentId =>
    .ok { items with subagents := items.subagents.update callId status nativeSubagentId }
  | .subagentCompleted callId _ _ _ =>
    (items.subagents.complete callId).map fun subagents => { items with subagents := subagents }
  | .subagentSettled settlement =>
    .ok { items with workflows := items.workflows.settle settlement }
  | .workflowStarted callId =>
    (items.workflows.start callId).map fun workflows => { items with workflows := workflows }
  | .workflowUpdated callId taskId agents =>
    .ok { items with workflows := items.workflows.update callId taskId agents }
  | .workflowLaunched callId _ background taskId =>
    .ok { items with
      workflows := items.workflows.launched callId background taskId cancellationRequested }
  | _ => .ok items

end TurnItems

/-- The live path of a Turn: the accumulator and the lifecycles that its events go to. -/
structure LiveTurn where
  accumulator : TurnAccumulator
  items : TurnItems
  terminal : Option ClaudeTransportTurnResult
  /-- The events so far; for the properties only. -/
  emitted : List ClaudeNativeEvent

namespace LiveTurn

def new (nativeTurnKey : String) : LiveTurn := ⟨.new, .new nativeTurnKey, none, []⟩

def receive (readings : NativeReadings) (live : LiveTurn) (message : NativeMessage) :
    Except String LiveTurn := do
  let ((accumulator, events), terminal) := live.accumulator.consume readings message
  let items ← events.foldlM (TurnItems.handle accumulator.cancelRequested) live.items
  return ⟨accumulator, items, live.terminal.orElse fun _ => terminal, live.emitted ++ events⟩

/-- The cancellation of the Turn. -/
def requestCancel (live : LiveTurn) : LiveTurn :=
  { live with accumulator := live.accumulator.requestCancel }

end LiveTurn

end CodexHost.Source.ClaudeCode
