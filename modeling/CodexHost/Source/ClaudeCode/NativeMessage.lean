import CodexHost.Foundation.JsonNumber

/-!
# The native messages of a Claude Turn

`ClaudeNativeTurnAccumulator` of `packages/adapters/claude-code/src/native-message.ts`. Messages are
values whose shape has been looked at: `none` stands for a member that is no string, and what the
source reads out of free text or a tool's arguments is a parameter.
-/
namespace CodexHost.Source.ClaudeCode
open Foundation

abbrev JsonValue := Json JsonNumber

structure ToolUse where
  id : Option String
  name : Option String
  /-- What `jsonValueSchema` makes of the input. -/
  input : Option JsonValue

inductive IsError where
  | absent
  | given (value : Bool)
  | malformed
  deriving DecidableEq, Repr

structure ToolResult where
  toolUseId : Option String
  isError : IsError
  /-- The text parts of its content. -/
  text : Utf16
  deriving DecidableEq, Repr

inductive ContentBlock where
  | text (text : Option Utf16)
  | thinking (thinking : Option Utf16)
  | toolUse (use : ToolUse)
  | toolResult (result : ToolResult)
  | other

inductive MessageContent where
  | text (text : Utf16)
  | blocks (blocks : List ContentBlock)
  | other

/-- The blocks, when the content is an array. -/
def MessageContent.array : MessageContent → Option (List ContentBlock)
  | .blocks items => some items
  | _ => none

def ContentBlock.textPart : ContentBlock → Option Utf16
  | .text part => part
  | _ => none

def ContentBlock.thinkingPart : ContentBlock → Option Utf16
  | .thinking part => part
  | _ => none

def ContentBlock.result : ContentBlock → Option ToolResult
  | .toolResult result => some result
  | _ => none

structure AssistantMessage where
  uuid : Option String
  parentToolUseId : Option String
  nativeId : Option String
  error : Option String
  isApiErrorMessage : Bool
  content : MessageContent

structure UserMessage where
  uuid : Option String
  parentToolUseId : Option String
  content : MessageContent
  /-- `tool_use_result` -/
  nativeResult : Option JsonValue

inductive StreamEvent where
  | messageStart (id : Option String)
  | textDelta (text : Utf16)
  | thinkingDelta (thinking : Utf16)
  | other

inductive SettledStatus where
  | completed
  | failed
  | interrupted
  deriving DecidableEq, Repr

/-- A task notification that is well-formed. -/
structure Settlement where
  nativeSubagentId : String
  callId : Option String
  status : SettledStatus
  deriving DecidableEq, Repr

inductive HostSubagentStatus where
  | pending
  | running
  | completed
  | failed
  | interrupted
  deriving DecidableEq, Repr

inductive WorkflowAgentState where
  | queued
  | running
  | done
  | error
  deriving DecidableEq, Repr

structure ClaudeWorkflowAgent where
  index : Nat
  label : String
  state : WorkflowAgentState
  agentId : Option String
  deriving DecidableEq, Repr

inductive TaskSubtype where
  | started
  | progress
  /-- `task_updated` with a status that is one. -/
  | updated (status : HostSubagentStatus)
  | other
  deriving DecidableEq, Repr

/-- A task frame that names a call. -/
structure TaskFrame where
  subtype : TaskSubtype
  callId : String
  taskId : Option String
  /-- `task_type` is `local_workflow`. -/
  localWorkflow : Bool
  /-- The agents of `workflow_progress`, when it is an array. -/
  agents : Option (List ClaudeWorkflowAgent)

inductive SystemFrame where
  | init
  | backgroundTasksChanged (nativeSubagentIds : List String)
  | localCommandOutput (content : Utf16)
  | taskNotification (settlement : Settlement)
  | task (frame : TaskFrame)
  | other

inductive NativeMessage where
  | assistant (message : AssistantMessage)
  | user (message : UserMessage)
  | stream (uuid parentToolUseId : Option String) (event : StreamEvent)
  | system (uuid parentToolUseId : Option String) (frame : SystemFrame)
  /-- The elapsed milliseconds, when they are a number that is not negative. -/
  | toolProgress (toolUseId : Option String) (elapsedMs : Option Nat)
  /-- `subtype`, `is_error` and `terminal_reason` speak of success; the reason is an abort. -/
  | result (success aborted : Bool)

/-- A text with at least one character. -/
def nonEmpty (value : Option String) : Option String := value.filter (· ≠ "")

def NativeMessage.parentToolUseId : NativeMessage → Option String
  | .assistant message => nonEmpty message.parentToolUseId
  | .user message => nonEmpty message.parentToolUseId
  | .stream _ parentToolUseId _ => nonEmpty parentToolUseId
  | .system _ parentToolUseId _ => nonEmpty parentToolUseId
  | .toolProgress _ _ => none
  | .result _ _ => none

def CLAUDE_SUBAGENT_TOOLS : List String := ["Agent", "Task", "SendMessage"]

def CLAUDE_WORKFLOW_TOOL : String := "Workflow"

structure AssistantMessageState where
  completed : Bool
  reasoning : Utf16
  text : Utf16

structure ActiveNativeTool where
  name : String
  subagent : Bool
  workflow : Bool
  deriving DecidableEq, Repr

inductive SubagentOperation where
  | spawn
  | send
  deriving DecidableEq, Repr

inductive ClaudeNativeEvent where
  | segmentStarted
  | subagentsLive (nativeSubagentIds : List String)
  | textDelta (messageId : String) (delta : Utf16)
  | reasoningDelta (messageId : String) (delta : Utf16)
  | reasoningCompleted (messageId : String)
  | messageCompleted (messageId : String) (checkpointId : Option String)
  | toolStarted (callId toolName : String) (arguments : JsonValue)
  | toolProgress (callId : String) (elapsedMs : Nat)
  | toolCompleted (callId toolName : String) (isError : Bool)
  | subagentStarted (callId : String) (operation : SubagentOperation) (background : Bool)
      (nativeSubagentId : Option String)
  | subagentUpdated (callId : String) (status : HostSubagentStatus)
      (nativeSubagentId : Option String)
  | subagentCompleted (callId : String) (isError continuesInBackground : Bool)
      (nativeSubagentId : Option String)
  | subagentSettled (settlement : Settlement)
  | subagentTranscriptChanged (callId : String)
  | workflowStarted (callId : String)
  | workflowUpdated (callId : String) (taskId : Option String) (agents : List ClaudeWorkflowAgent)
  | workflowActivity (callId : String)
  | workflowLaunched (callId : String) (isError background : Bool) (taskId : Option String)

/-- What is read out of a tool's arguments, a tool's result and the text of a user message. -/
structure NativeReadings where
  subagentBackground : JsonValue → Bool
  targetedSubagentId : JsonValue → Option String
  nativeSubagentId : Option JsonValue → ToolResult → Option String
  subagentContinuesInBackground : Option JsonValue → ToolResult → Bool
  claudeSendMessageFailed : Option JsonValue → ToolResult → Bool
  /-- The status says that a run was launched, here or remotely. -/
  workflowLaunched : Option JsonValue → Bool
  workflowTaskId : Option JsonValue → Option String
  parseClaudeTaskNotification : UserMessage → Option Settlement

def AUTHENTICATION_ERRORS : List String := ["authentication_failed", "oauth_org_not_allowed"]

inductive ClaudeTransportFailureKind where
  | authentication
  | cancellationUnproven
  | native
  | protocol
  | textConflict
  deriving DecidableEq, Repr

inductive ClaudeTransportTurnResult where
  | succeeded
  | cancelled
  | failed (kind : ClaudeTransportFailureKind)
  deriving DecidableEq, Repr

structure TurnAccumulator where
  activeRootStreamMessageId : Option String
  assistantErrors : List String
  cancelRequested : Bool
  completed : Bool
  completedToolIds : List String
  messageOrdinal : Nat
  messages : OrderedMap String AssistantMessageState
  protocolConflict : Bool
  textConflict : Bool
  tools : OrderedMap String ActiveNativeTool

/-- The accumulator in the middle of `consume`, and the events so far. -/
abbrev Consumed := TurnAccumulator × List ClaudeNativeEvent

namespace TurnAccumulator

def new : TurnAccumulator := ⟨none, [], false, false, [], 0, .empty, false, false, .empty⟩

variable (readings : NativeReadings) (a : TurnAccumulator)

def requestCancel : TurnAccumulator := { a with cancelRequested := true }

def messageState (messageId : String) : AssistantMessageState :=
  (a.messages.get? messageId).getD ⟨false, [], []⟩

/-- A message id: the one of the stream, else another, else a new one. -/
def messageIdFor (named : Option String) : String × TurnAccumulator :=
  match a.activeRootStreamMessageId.orElse fun _ => named with
  | some messageId => (messageId, a)
  | none =>
    ("claude-assistant-" ++ (a.messageOrdinal + 1).repr, { a with messageOrdinal := a.messageOrdinal + 1 })

def consumeStreamEvent (uuid : Option String) (event : StreamEvent) (c : Consumed) : Consumed :=
  let (a, events) := c
  let delta (change : AssistantMessageState → AssistantMessageState × List ClaudeNativeEvent)
      (messageId : String) (a : TurnAccumulator) : Consumed :=
    let (state, more) := change (a.messageState messageId)
    ({ a with messages := a.messages.set messageId state }, events ++ more)
  match event with
  | .messageStart id =>
    match nonEmpty id with
    | some messageId => ({ a with
        activeRootStreamMessageId := some messageId
        messages := a.messages.set messageId (a.messageState messageId) }, events)
    | none => c
  | .textDelta text =>
    let (messageId, a) := a.messageIdFor (nonEmpty uuid)
    let a := { a with activeRootStreamMessageId := some messageId }
    if (a.messageState messageId).completed then
      delta (fun state => (state, [])) messageId { a with textConflict := true }
    else delta (fun state => if text = [] then (state, []) else
      ({ state with text := state.text ++ text }, [.textDelta messageId text])) messageId a
  | .thinkingDelta thinking =>
    let (messageId, a) := a.messageIdFor (nonEmpty uuid)
    let a := { a with activeRootStreamMessageId := some messageId }
    if (a.messageState messageId).completed then delta (fun state => (state, [])) messageId a
    else delta (fun state => if thinking = [] then (state, []) else
      ({ state with reasoning := state.reasoning ++ thinking },
        [.reasoningDelta messageId thinking])) messageId a
  | .other => c

/-- The id, name and input of a tool use, when all are well-formed. -/
def wellFormed (use : ToolUse) : Option (String × String × JsonValue) := do
  let id ← nonEmpty use.id
  let name ← nonEmpty use.name
  let input ← use.input
  return (id, name, input)

/-- What the start of a tool is told as. -/
def startEvent (id name : String) (input : JsonValue) : ClaudeNativeEvent :=
  if name = CLAUDE_WORKFLOW_TOOL then .workflowStarted id
  else if name ∈ CLAUDE_SUBAGENT_TOOLS then
    .subagentStarted id (if name = "SendMessage" then .send else .spawn)
      (name = "SendMessage" || readings.subagentBackground input) (readings.targetedSubagentId input)
  else .toolStarted id name input

/-- The loop body of `#consumeToolUseBlocks`. -/
def consumeToolUse (ignoreKnownIds : Bool) (c : Consumed) (block : ContentBlock) : Consumed :=
  match block with
  | .toolUse use =>
    match wellFormed use with
    | none => ({ c.1 with protocolConflict := true }, c.2)
    | some (id, name, input) =>
      if c.1.tools.has id || c.1.completedToolIds.contains id then
        (if ignoreKnownIds then c.1 else { c.1 with protocolConflict := true }, c.2)
      else
        let tool : ActiveNativeTool :=
          ⟨name, name ∈ CLAUDE_SUBAGENT_TOOLS, name = CLAUDE_WORKFLOW_TOOL⟩
        ({ c.1 with tools := c.1.tools.set id tool }, c.2 ++ [startEvent readings id name input])
  | _ => c

def consumeToolUseBlocks (ignoreKnownIds : Bool) (content : MessageContent) (c : Consumed) : Consumed :=
  (content.array.getD []).foldl (consumeToolUse readings ignoreKnownIds) c

/-- The part of `#consumeAssistantMessage` about the text of a message that is not completed. -/
def consumeText (messageId : String) (content : MessageContent) (c : Consumed) : Consumed :=
  let (a, events) := c
  let state := a.messageState messageId
  match content.array with
  | none => c
  | some blocks =>
    let completeText := (blocks.filterMap ContentBlock.textPart).flatten
    if completeText = [] then c
    else if state.text.isPrefixOf completeText then
      let suffix := completeText.drop state.text.length
      if suffix = [] then c
      else ({ a with messages := a.messages.set messageId { state with text := state.text ++ suffix } },
        events ++ [.textDelta messageId suffix])
    else ({ a with textConflict := true }, events)

def consumeAssistantMessage (message : AssistantMessage) (c : Consumed) : Consumed :=
  let checkpointId := nonEmpty message.uuid
  let (messageId, a) := c.1.messageIdFor ((nonEmpty message.nativeId).orElse fun _ => checkpointId)
  let state := a.messageState messageId
  let a := { a with messages := a.messages.set messageId state }
  if state.completed then consumeToolUseBlocks readings true message.content (a, c.2)
  else
    let reasoned := if state.reasoning = [] then c.2 else c.2 ++ [.reasoningCompleted messageId]
    let (a, events) := consumeToolUseBlocks readings false message.content
      (consumeText messageId message.content (a, reasoned))
    let told := if a.protocolConflict || a.textConflict then events
      else events ++ [.messageCompleted messageId checkpointId]
    ({ a with
      messages := a.messages.set messageId { a.messageState messageId with completed := true }
      activeRootStreamMessageId :=
        if a.activeRootStreamMessageId = some messageId then none else a.activeRootStreamMessageId },
      told)

/-- What the end of a tool is told as. -/
def completionEvent (callId : String) (tool : ActiveNativeTool) (nativeResult : Option JsonValue)
    (result : ToolResult) : ClaudeNativeEvent :=
  let isError := result.isError = .given true
  if tool.workflow then
    .workflowLaunched callId isError (!isError && readings.workflowLaunched nativeResult)
      (readings.workflowTaskId nativeResult)
  else if tool.subagent then
    .subagentCompleted callId
      (isError || (tool.name = "SendMessage" && readings.claudeSendMessageFailed nativeResult result))
      (readings.subagentContinuesInBackground nativeResult result)
      (readings.nativeSubagentId nativeResult result)
  else .toolCompleted callId tool.name isError

/-- The loop body of `#consumeToolResults`. -/
def consumeToolResult (ignoreUnknown : Bool) (nativeResult : Option JsonValue) (c : Consumed)
    (result : ToolResult) : Consumed :=
  let conflict : Consumed := ({ c.1 with protocolConflict := true }, c.2)
  match nonEmpty result.toolUseId with
  | none => conflict
  | some callId =>
    match c.1.tools.get? callId with
    | none => if ignoreUnknown then c else conflict
    | some tool =>
      if c.1.completedToolIds.contains callId then if ignoreUnknown then c else conflict
      else if result.isError = .malformed then conflict
      else
        ({ c.1 with
          tools := c.1.tools.delete callId
          completedToolIds := c.1.completedToolIds ++ [callId] },
          c.2 ++ [completionEvent readings callId tool nativeResult result])

/-- `#consumeToolResults`: a structured result belongs to a message with one result. -/
def consumeToolResults (message : UserMessage) (ignoreUnknown : Bool) (c : Consumed) : Consumed :=
  let results := (message.content.array.getD []).filterMap ContentBlock.result
  if results = [] then c
  else
    let conflict := results.length > 1 && message.nativeResult.isSome
    let nativeResult := if results.length = 1 then message.nativeResult else none
    results.foldl (consumeToolResult readings ignoreUnknown nativeResult)
      (if conflict then { c.1 with protocolConflict := true } else c.1, c.2)

def consumeToolProgress (toolUseId : Option String) (elapsedMs : Option Nat) (c : Consumed) : Consumed :=
  match toolUseId, elapsedMs with
  | some callId, some elapsedMs =>
    match c.1.tools.get? callId with
    | some tool =>
      if tool.subagent || tool.workflow then c else (c.1, c.2 ++ [.toolProgress callId elapsedMs])
    | none => c
  | _, _ => c

def consumeLocalCommandOutput (uuid : Option String) (content : Utf16) (c : Consumed) : Consumed :=
  if content = [] then c
  else
    let checkpointId := nonEmpty uuid
    let (messageId, a) : String × TurnAccumulator :=
      match checkpointId with
      | some messageId => (messageId, c.1)
      | none =>
        ("claude-assistant-" ++ (c.1.messageOrdinal + 1).repr,
          { c.1 with messageOrdinal := c.1.messageOrdinal + 1 })
    let state := a.messageState messageId
    if state.completed then ({ a with messages := a.messages.set messageId state }, c.2)
    else
      let shown : AssistantMessageState := { state with text := state.text ++ content, completed := true }
      ({ a with messages := a.messages.set messageId shown },
        c.2 ++ [.textDelta messageId content, .messageCompleted messageId checkpointId])

/-- `#consumeWorkflowTask` -/
def workflowTaskEvents (frame : TaskFrame) : List ClaudeNativeEvent :=
  match frame.subtype with
  | .started => [.workflowUpdated frame.callId frame.taskId []]
  | .progress =>
    match frame.agents with
    | none => [.workflowActivity frame.callId]
    | some agents => [.workflowUpdated frame.callId frame.taskId agents]
  | _ => []

/-- `#consumeTaskLifecycle` for a frame that names a call. -/
def taskEvents (frame : TaskFrame) : List ClaudeNativeEvent :=
  let tool := a.tools.get? frame.callId
  if tool.any (·.workflow) || frame.localWorkflow || frame.agents.isSome then
    workflowTaskEvents frame
  else
    match tool with
    | none => if frame.subtype = .progress then [.workflowActivity frame.callId] else []
    | some tool =>
      if !tool.subagent then []
      else
        match frame.subtype with
        | .started => [.subagentUpdated frame.callId .running frame.taskId]
        | .progress => [.subagentUpdated frame.callId .running frame.taskId]
        | .updated status => [.subagentUpdated frame.callId status frame.taskId]
        | .other => []

/-- `#consumeSegmentLevel`, `#consumeTaskLifecycle` and the local command output. -/
def consumeSystem (uuid : Option String) (nested : Bool) (frame : SystemFrame) : Consumed :=
  match frame with
  | .init => (a, [.segmentStarted])
  | .backgroundTasksChanged nativeSubagentIds => (a, [.subagentsLive nativeSubagentIds])
  | .localCommandOutput content =>
    if nested then (a, []) else consumeLocalCommandOutput uuid content (a, [])
  | .taskNotification settlement => (a, [.subagentSettled settlement])
  | .task frame => (a, a.taskEvents frame)
  | .other => (a, [])

/-- What a message of a running tool tells about it. -/
def activity (parent : Option String) : List ClaudeNativeEvent :=
  match parent.bind fun callId => (a.tools.get? callId).map fun tool => (callId, tool) with
  | some (callId, tool) =>
    if tool.subagent then [.subagentTranscriptChanged callId]
    else if tool.workflow then [.workflowActivity callId]
    else []
  | none => []

/-- The end of a Turn: its terminal. -/
def terminal (success aborted : Bool) : ClaudeTransportTurnResult :=
  let nativeSuccess := success && a.assistantErrors.isEmpty
  if a.protocolConflict || (nativeSuccess && !a.tools.entries.isEmpty) then .failed .protocol
  else if a.textConflict then .failed .textConflict
  else if a.assistantErrors.any AUTHENTICATION_ERRORS.contains then .failed .authentication
  else if a.cancelRequested && aborted then .cancelled
  else if a.cancelRequested then .failed .cancellationUnproven
  else if nativeSuccess then .succeeded
  else .failed .native

/-- `consume`: the state and the events, and the terminal after a result. -/
def consume (message : NativeMessage) : Consumed × Option ClaudeTransportTurnResult :=
  let parent := message.parentToolUseId
  if a.completed then ((a, []), none)
  else
    match message with
    | .stream uuid _ event =>
      (if parent.isSome then (a, []) else consumeStreamEvent uuid event (a, []), none)
    | .system uuid _ frame => (a.consumeSystem uuid parent.isSome frame, none)
    | .toolProgress toolUseId elapsedMs => (consumeToolProgress toolUseId elapsedMs (a, []), none)
    | .assistant message =>
      if parent.isSome then ((a, a.activity parent), none)
      else
        let a := { a with assistantErrors := a.assistantErrors ++ message.error.toList }
        (consumeAssistantMessage readings message (a, []), none)
    | .user message =>
      let settled := ((readings.parseClaudeTaskNotification message).map .subagentSettled).toList
      (consumeToolResults readings message parent.isSome (a, a.activity parent ++ settled), none)
    | .result success aborted =>
      (({ a with completed := true }, []), some (a.terminal success aborted))

end TurnAccumulator

end CodexHost.Source.ClaudeCode
