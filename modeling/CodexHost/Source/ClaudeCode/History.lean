import CodexHost.Source.ClaudeCode.TurnItems

/-!
# The history projection of a Claude transcript

`mapClaudeSnapshot` of `packages/adapters/claude-code/src/claude-history.ts`, on the records that
`conversationMessages` has checked and marked. The regular expressions over user texts are a
parameter.
-/
namespace CodexHost.Source.ClaudeCode
open Foundation

inductive HistoryRole where
  | user
  | assistant
  deriving DecidableEq, Repr

structure ClaudeHistoryMessage where
  type : HistoryRole
  uuid : String
  content : MessageContent
  failed : Bool
  nested : Bool
  syntheticUser : Bool
  interrupted : Bool
  startsTurn : Bool

/-- What the patterns of the source find in a text. -/
structure TextRules where
  isControlCommandEnvelope : Utf16 → Bool
  isLocalCommandRecord : Utf16 → Bool
  isTaskNotificationRecord : Utf16 → Bool
  isInitEnvelope : Utf16 → Bool
  isRecapEnvelope : Utf16 → Bool
  localCommandStdoutText : Utf16 → Option Utf16
  /-- `claudeSendMessageFailed(undefined, output)` -/
  sendMessageFailed : Option Utf16 → Bool

inductive HistoricalTurnOutcome where
  | cancelled (reason : String)
  | failed (message : String)
  | unknown (reason : String)
  deriving DecidableEq, Repr

inductive HostItemOutcome where
  | succeeded
  | failed (message : String)
  | cancelled (reason : String)
  deriving DecidableEq, Repr

structure HistoricalItem where
  item : HostItem
  output : Option Utf16
  outcome : HostItemOutcome
  /-- The tool use that it stands for; for the properties only. -/
  callId : Option String

structure HistoricalTurn where
  nativeTurnKey : String
  checkpointId : Option String
  input : List Utf16
  items : List HistoricalItem
  outcome : HistoricalTurnOutcome

def textParts : MessageContent → List Utf16
  | .text text => if text = [] then [] else [text]
  | .blocks blocks => blocks.filterMap ContentBlock.textPart
  | .other => []

def thinkingParts : MessageContent → List Utf16
  | .blocks blocks => blocks.filterMap ContentBlock.thinkingPart
  | _ => []

section Turns
variable (rules : TextRules)

def visibleUserTextParts (message : ClaudeHistoryMessage) : List Utf16 :=
  let parts := textParts message.content
  if message.type ≠ .user || message.syntheticUser then []
  else if parts.any rules.isControlCommandEnvelope then []
  else parts.filter fun part =>
    !rules.isLocalCommandRecord part && !rules.isTaskNotificationRecord part

def displayedUserText (text : Utf16) : Utf16 :=
  if rules.isInitEnvelope text then Utf16.ofString "/init"
  else if rules.isRecapEnvelope text then Utf16.ofString "/recap"
  else text

def turnOutcome (messages : List ClaudeHistoryMessage) : HistoricalTurnOutcome :=
  let assistants := messages.filter (·.type = .assistant)
  if messages.any (·.interrupted) then .cancelled "Cancelled by user"
  else if assistants.any fun message => message.failed && !message.nested then
    .failed "Claude Assistant failed"
  else if assistants.isEmpty then .unknown "Claude history has no Assistant terminal"
  else .unknown "Claude history does not include complete Result terminal evidence"

def itemOutcome : HistoricalTurnOutcome → HostItemOutcome
  | .failed message => .failed message
  | .cancelled reason => .cancelled reason
  | .unknown _ => .succeeded

/-- The outcome of the text Items of an assistant record. -/
def assistantOutcome (outcome : HistoricalTurnOutcome) (message : ClaudeHistoryMessage) : HostItemOutcome :=
  match outcome with
  | .failed _ => if !message.failed || message.nested then .succeeded else itemOutcome outcome
  | _ => itemOutcome outcome

/-- `toolResultBlocks`: a later result of the same tool use replaces an earlier one. -/
def toolResultBlocks (messages : List ClaudeHistoryMessage) : OrderedMap String ToolResult :=
  OrderedMap.empty.setAll ((messages.filter (·.type = .user)).flatMap fun message =>
    ((message.content.array.getD []).filterMap ContentBlock.result).filterMap fun result =>
      result.toolUseId.map fun id => (id, result))

def toolResultOutput (result : ToolResult) : Option Utf16 :=
  if result.text = [] then none else some result.text

/-- The variables of a Turn, and of the record that is being read. -/
structure Projection where
  agentMessageOrdinal : Nat
  reasoningOrdinal : Nat
  toolOrdinal : Nat
  projectedReasoning : Bool
  projectedText : Bool
  items : List HistoricalItem

namespace Projection
variable (p : Projection)

def agentMessage (key : String) (text : Utf16) (outcome : HostItemOutcome) : Projection :=
  let itemId := claudeTranscriptItemId key .agentMessage (p.agentMessageOrdinal + 1)
  { p with
    agentMessageOrdinal := p.agentMessageOrdinal + 1
    items := p.items ++ [⟨.agentMessage itemId text, none, outcome, none⟩] }

def reasoning (key : String) (text : Utf16) (outcome : HostItemOutcome) : Projection :=
  let itemId := claudeTranscriptItemId key .reasoning (p.reasoningOrdinal + 1)
  { p with
    reasoningOrdinal := p.reasoningOrdinal + 1
    items := p.items ++ [⟨.reasoning itemId text, none, outcome, none⟩] }

/-- The Item of a tool use with its result. -/
def toolItem (itemId id name : String) (input : Option JsonValue) (result : ToolResult) : HistoricalItem :=
  let output := toolResultOutput result
  let failed := result.isError = .given true || (name = "SendMessage" && rules.sendMessageFailed output)
  let item :=
    match if name = "Bash" then input.bind commandOf else none with
    | some command => HostItem.commandExecution itemId command
    | none => .toolExecution itemId name (input.getD .null)
  ⟨item, output, if failed then .failed (name ++ " failed") else .succeeded, some id⟩

/-- A tool use of the loop over the blocks, at its place in the record. -/
def toolUse (key : String) (results : OrderedMap String ToolResult) (message : ClaudeHistoryMessage)
    (use : ToolUse) (blockIndex : Nat) : Projection :=
  match use.id, use.name with
  | some id, some name =>
    let counted := !message.nested && !CLAUDE_SUBAGENT_TOOLS.contains name
    let p := if counted then { p with toolOrdinal := p.toolOrdinal + 1 } else p
    match results.get? id with
    | none => p
    | some result =>
      let itemId :=
        if counted then claudeTranscriptItemId key .tool p.toolOrdinal
        else "claude-item-v1-" ++ message.uuid ++ "-tool-" ++ blockIndex.repr
      { p with items := p.items ++ [toolItem rules itemId id name use.input result] }
  | _, _ => p

/-- The loop body over the blocks of an assistant record. -/
def block (key : String) (results : OrderedMap String ToolResult) (outcome : HistoricalTurnOutcome)
    (message : ClaudeHistoryMessage) (p : Projection) (indexed : ContentBlock × Nat) : Projection :=
  let text := (textParts message.content).flatten
  let reasoning := (thinkingParts message.content).flatten
  match indexed.1 with
  | .thinking _ =>
    if p.projectedReasoning || reasoning = [] then p
    else { p.reasoning key reasoning (assistantOutcome outcome message) with projectedReasoning := true }
  | .text _ =>
    if p.projectedText || text = [] then p
    else { p.agentMessage key text (assistantOutcome outcome message) with projectedText := true }
  | .toolUse use => p.toolUse rules key results message use indexed.2
  | _ => p

/-- The loop body over the records of a Turn that this user record starts. -/
def message (user : ClaudeHistoryMessage) (results : OrderedMap String ToolResult)
    (outcome : HistoricalTurnOutcome) (p : Projection) (message : ClaudeHistoryMessage) : Projection :=
  match message.type with
  | .user =>
    if (visibleUserTextParts rules user).any rules.isRecapEnvelope then
      match ((textParts message.content).filterMap rules.localCommandStdoutText).find? (· ≠ []) with
      | some recapOutput => p.agentMessage user.uuid recapOutput (itemOutcome outcome)
      | none => p
    else p
  | .assistant =>
    match message.content.array with
    | none =>
      let text := (textParts message.content).flatten
      if text = [] then p else p.agentMessage user.uuid text (assistantOutcome outcome message)
    | some blocks =>
      blocks.zipIdx.foldl (Projection.block rules user.uuid results outcome message)
        { p with projectedReasoning := false, projectedText := false }

end Projection

/-- A Turn of the snapshot. -/
def mapTurn (user : ClaudeHistoryMessage) (rest : List ClaudeHistoryMessage) : HistoricalTurn :=
  let turnMessages := user :: rest
  let outcome := turnOutcome turnMessages
  let results := toolResultBlocks turnMessages
  let checkpoint := turnMessages.reverse.find? fun message =>
    !message.nested && (message.type = .assistant || message.interrupted)
  let projected :=
    turnMessages.foldl (Projection.message rules user results outcome) ⟨0, 0, 0, false, false, []⟩
  ⟨user.uuid, checkpoint.map (·.uuid), (visibleUserTextParts rules user).map (displayedUserText rules),
    projected.items, outcome⟩

/-- What comes before the first Turn, and the records of each Turn after the one that starts it. -/
def splitTurns : List ClaudeHistoryMessage →
    List ClaudeHistoryMessage × List (ClaudeHistoryMessage × List ClaudeHistoryMessage)
  | [] => ([], [])
  | message :: rest =>
    let (before, turns) := splitTurns rest
    if message.startsTurn then ([], (message, before) :: turns) else (message :: before, turns)

def mapClaudeSnapshot (messages : List ClaudeHistoryMessage) : List HistoricalTurn :=
  (splitTurns messages).2.map fun turn => mapTurn rules turn.1 turn.2

end Turns

end CodexHost.Source.ClaudeCode
