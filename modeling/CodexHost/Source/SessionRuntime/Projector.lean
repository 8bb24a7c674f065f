import CodexHost.Foundation.EcmaString
import CodexHost.Foundation.OrderedMap
import CodexHost.Source.SessionRuntime.SessionLog

/-!
# The projector of a Turn

`TurnProjector` of `packages/session-runtime/src/projector.ts`: the Items of a Harness become the
Steps of a journal. How a tool's call and result are rendered is a parameter (`ToolView`).
-/
namespace CodexHost.Source.SessionRuntime
open Foundation

structure HostFileChange where
  path : String
  kind : String
  unifiedDiff : String
  deriving DecidableEq, Repr

structure HostSubagent where
  subagentId : String
  description : String
  status : String
  resultSummary : Option String
  deriving DecidableEq, Repr

/-- The Items that are no narration; `arguments` and outputs as the texts they render to. -/
inductive ToolItem where
  | contextCompaction
  | commandExecution (command : String) (cwd : Option String) (output : Option Text)
      (exitCode : Option Int)
  | toolExecution (toolName : String) (space : Option String) (arguments : String)
      (output : Option (List Text))
  | fileChange (changes : List HostFileChange)
  | subagentDelegation (operation : String) (prompt : Option String)
      (subagents : List HostSubagent)
  deriving DecidableEq, Repr

inductive HostItem where
  | narration (kind : BlockKind) (itemId : String) (text : Text)
  | tool (itemId : String) (item : ToolItem)
  deriving DecidableEq, Repr

inductive HostItemUpdate where
  | textAppend (text : Text)
  | outputAppend (text : Text)
  /-- The text parts of the new output. -/
  | outputReplace (parts : List Text)
  | fileChangesReplace (changes : List HostFileChange)
  | subagentsReplace (subagents : List HostSubagent)
  deriving DecidableEq, Repr

structure HarnessError where
  code : String
  message : String
  deriving DecidableEq, Repr

inductive HostItemOutcome where
  | succeeded
  | failed (error : HarnessError)
  | cancelled (reason : Option String)
  deriving DecidableEq, Repr

inductive TurnOutcome where
  | succeeded
  | failed (error : HarnessError)
  | cancelled (reason : Option String)
  | unknown (reason : String)
  deriving DecidableEq, Repr

/-- The `reason` of "turn/end". -/
inductive EndReason where
  | completed
  | aborted
  | error (message code : String)
  | interrupted
  deriving DecidableEq, Repr

/-- A part of the user's input, with its `text` if it has one. -/
structure InputPart where
  text : Option String
  deriving DecidableEq, Repr

/-- A block of an assistant message. The journal does not write `itemId`. -/
structure MessageBlock where
  itemId : String
  kind : BlockKind
  text : Text
  deriving DecidableEq, Repr

/-- Name and argument JSON of a tool call. -/
structure ToolCall where
  name : String
  arguments : String
  deriving DecidableEq, Repr

inductive EventData (Result : Type) where
  /-- "turn/start" -/
  | turn (turn : Nat)
  /-- "step/start" and "step/end" -/
  | step (turn step : Nat)
  | user (content : List InputPart) (rpcId : Option String)
  | assistant (turn step : Nat) (blocks : List MessageBlock) (calls : List (String × ToolCall))
  | call (turn step : Nat) (callId : String) (call : ToolCall)
  | result (turn step : Nat) (callId : String) (isError : Bool) (result : Result)
  /-- "turn/end", with `finalAssistantStep` where it is given. -/
  | turnEnd (turn : Nat) (reason : EndReason) (finalAssistantStep : Option (Option Nat))
  deriving DecidableEq, Repr

structure ToolState where
  callId : String
  call : ToolCall
  callSeq : Nat
  item : ToolItem
  output : Text
  deriving DecidableEq, Repr

/-- How a tool is shown: `toolCallOf` with `JSON.stringify`, and what `itemCompleted` makes of
the tool, its final Item and its outcome. -/
structure ToolView (Result : Type) where
  toolCallOf : ToolItem → ToolCall
  toolResult : ToolState → ToolItem → HostItemOutcome → Result

structure NarrationBlock where
  itemId : String
  kind : BlockKind
  index : Nat
  text : Text
  ended : Bool
  deriving DecidableEq, Repr

structure Narration where
  kind : BlockKind
  text : Text
  step : Option Nat
  deriving DecidableEq, Repr

structure TurnProjector (Result : Type) where
  step : Nat
  stepOpen : Bool
  stepHasTools : Bool
  messageCommitted : Bool
  blocks : List NarrationBlock
  /-- The block of an Item in `blocks`. -/
  blockByItem : String → Option Nat
  narration : String → Option Narration
  tools : OrderedMap String ToolState
  earlyOutput : String → Option Text
  finished : Bool
  turn : Nat
  log : SessionLog (EventData Result)
  live : Bool
  view : ToolView Result

namespace TurnProjector
variable {Result : Type} (p : TurnProjector Result)

/-- A projector on a journal without an active attempt. -/
def new (events : List (WireEvent (EventData Result))) (sequenceStart attemptCounter turn : Nat)
    (live : Bool) (view : ToolView Result) : TurnProjector Result where
  step := 0
  stepOpen := false
  stepHasTools := false
  messageCommitted := false
  blocks := []
  blockByItem _ := none
  narration _ := none
  tools := .empty
  earlyOutput _ := none
  finished := false
  turn := turn
  log := ⟨events, sequenceStart, none, attemptCounter, []⟩
  live := live
  view := view

def append (type : EventType) (data : EventData Result) (surface : Bool)
    (sources : Option (List Nat)) : TurnProjector Result :=
  { p with log := p.log.append type data surface sources }

/-- A chunk of the live stream. -/
def chunk (chunk : Chunk) : TurnProjector Result :=
  if p.live then { p with log := p.log.chunk chunk } else p

def openStep : TurnProjector Result :=
  { p with
    step := p.step + 1
    stepOpen := true
    stepHasTools := false
    messageCommitted := false
    blocks := []
    blockByItem := fun _ => none }.append .stepStart (.step p.turn (p.step + 1)) false none

/-- Marks the block as ended. -/
def setEnded (index : Nat) : TurnProjector Result :=
  { p with blocks := p.blocks.modify index ({ · with ended := true }) }

def endBlock (index : Nat) : TurnProjector Result :=
  match p.blocks[index]? with
  | none => p
  | some block =>
    if block.ended then p
    else (p.setEnded index).chunk (.blockEnd index block.kind block.text)

def endBlocks : TurnProjector Result :=
  (List.range p.blocks.length).foldl (fun p index => p.endBlock index) p

/-- The blocks of an assistant message. -/
def content : List MessageBlock :=
  (p.blocks.filter (·.text ≠ [])).map fun block => ⟨block.itemId, block.kind, block.text⟩

def commitMessage (calls : List (String × ToolCall)) : TurnProjector Result :=
  let p := (p.endBlocks).chunk (.finish (!calls.isEmpty))
  let seq := p.log.sequenceStart + p.log.events.length
  let p := p.append .assistantMessage (.assistant p.turn p.step p.content calls) true none
  { p with log := p.log.endAttempt (some seq), messageCommitted := true }

def closeStep : TurnProjector Result :=
  if !p.stepOpen then p
  else
    let p := if !p.messageCommitted && p.blocks.any (·.text ≠ []) then p.commitMessage []
      else { p with log := p.log.endAttempt none }
    { p.append .stepEnd (.step p.turn p.step) false none with stepOpen := false }

/-- The message of the user. -/
def userMessage (content : List InputPart) (rpcId : Option String) : TurnProjector Result :=
  p.append .userMessage (.user content rpcId) true none

def startTurn : TurnProjector Result :=
  (p.append .turnStart (.turn p.turn) false none).openStep

def begin (content : List InputPart) (requestId : Option String) : TurnProjector Result :=
  p.startTurn.userMessage content requestId

def beginAutonomous (content : List InputPart) : TurnProjector Result :=
  if content.any fun part => part.text.any fun text => !EcmaString.isBlank text then
    p.begin content none
  else p.startTurn

def steer (content : List InputPart) (requestId : Option String) : TurnProjector Result :=
  if p.finished then p else p.closeStep.openStep.userMessage content requestId

def ensureAttempt : TurnProjector Result :=
  if p.live && p.log.attempt.isNone then
    { p with log := p.log.startAttempt p.turn p.step }
  else p

/-- `narration.step = this.step` -/
def noteStep (itemId : String) : TurnProjector Result :=
  { p with
    narration := Function.update p.narration itemId
      ((p.narration itemId).map ({ · with step := some p.step })) }

def addBlock (itemId : String) (kind : BlockKind) : TurnProjector Result :=
  { p with
    blocks := p.blocks ++ [⟨itemId, kind, p.blocks.length, [], false⟩]
    blockByItem := Function.update p.blockByItem itemId (some p.blocks.length) }

/-- A new block in the stream. -/
def newBlock (itemId : String) (kind : BlockKind) : TurnProjector Result :=
  (p.addBlock itemId kind).ensureAttempt.chunk (.blockStart p.blocks.length kind)

/-- The block of the Item that may still take text. -/
def existing (itemId : String) : Option Nat :=
  (p.blockByItem itemId).filter fun index =>
    (p.blocks[index]?).any (!·.ended) && !p.messageCommitted && !p.stepHasTools

/-- A block of the kind needs a Step of its own. -/
def needsStep (itemId : String) (kind : BlockKind) : Bool :=
  !p.stepOpen || p.stepHasTools || p.messageCommitted ||
    (kind = .text && p.blocks.any fun block => block.kind = .text && block.itemId ≠ itemId)

def kindOf (itemId : String) : BlockKind := ((p.narration itemId).map (·.kind)).getD .text

/-- The Step that a new block of the Item goes into. -/
def stepFor (itemId : String) : TurnProjector Result :=
  if p.needsStep itemId (p.kindOf itemId) then p.closeStep.openStep else p

/-- The block of the Item that takes more text, by its index. -/
def writableBlock (itemId : String) : TurnProjector Result × Nat :=
  match p.existing itemId with
  | some index => (p, index)
  | none =>
    let p' := (p.stepFor itemId).noteStep itemId
    (p'.newBlock itemId (p.kindOf itemId), p'.blocks.length)

/-- `block.text += text` -/
def addText (index : Nat) (text : Text) : TurnProjector Result :=
  { p with
    blocks := p.blocks.modify index (fun block => { block with text := block.text ++ text }) }

def appendText (index : Nat) (text : Text) : TurnProjector Result :=
  match p.blocks[index]? with
  | none => p
  | some block => (p.addText index text).chunk (.delta index block.kind text)

/-- `state.text += text` -/
def noteText (itemId : String) (text : Text) : TurnProjector Result :=
  { p with
    narration := Function.update p.narration itemId
      ((p.narration itemId).map fun state => { state with text := state.text ++ text }) }

def appendNarration (itemId : String) (text : Text) : TurnProjector Result :=
  if text = [] then p
  else
    let (p, index) := (p.noteText itemId text).writableBlock itemId
    p.appendText index text

def startTool (itemId : String) (item : ToolItem) : TurnProjector Result :=
  if p.tools.has itemId then p
  else
    let p := if p.stepOpen then p else p.openStep
    let call := p.view.toolCallOf item
    let p := if p.messageCommitted then p else p.commitMessage [(itemId, call)]
    let seq := p.log.sequenceStart + p.log.events.length
    let p := p.append .toolCall (.call p.turn p.step itemId call) false none
    { p with
      earlyOutput := Function.update p.earlyOutput itemId none
      tools := p.tools.set itemId ⟨itemId, call, seq, item, (p.earlyOutput itemId).getD []⟩
      stepHasTools := true }

/-- The Item is narration that has been seen. -/
def seen (kind : BlockKind) (itemId : String) : TurnProjector Result :=
  if (p.narration itemId).isSome then p
  else { p with narration := Function.update p.narration itemId (some ⟨kind, [], none⟩) }

def itemStarted (item : HostItem) : TurnProjector Result :=
  if p.finished then p
  else
    match item with
    | .narration kind itemId text => (p.seen kind itemId).appendNarration itemId text
    | .tool itemId item => p.startTool itemId item

def setTool (itemId : String) (tool : ToolState) : TurnProjector Result :=
  { p with tools := p.tools.set itemId tool }

/-- "\n" -/
def newline : UInt16 := 10

def itemUpdated (itemId : String) (update : HostItemUpdate) : TurnProjector Result :=
  if p.finished then p
  else if (p.narration itemId).isSome then
    match update with
    | .textAppend text => p.appendNarration itemId text
    | _ => p
  else
    match p.tools.get? itemId, update with
    | none, .outputAppend text =>
      { p with
        earlyOutput := Function.update p.earlyOutput itemId (some ((p.earlyOutput itemId).getD [] ++ text)) }
    | none, _ => p
    | some tool, .outputAppend text => p.setTool itemId { tool with output := tool.output ++ text }
    | some tool, .outputReplace parts =>
      p.setTool itemId { tool with output := List.intercalate [newline] parts }
    | some tool, .fileChangesReplace changes =>
      match tool.item with
      | .fileChange _ =>
        let item := ToolItem.fileChange changes
        let call := p.view.toolCallOf item
        (p.setTool itemId { tool with item := item, call := call }).append .toolCall
          (.call p.turn p.step tool.callId call) false none
      | _ => p
    | some tool, .subagentsReplace subagents =>
      match tool.item with
      | .subagentDelegation operation prompt _ =>
        p.setTool itemId { tool with item := .subagentDelegation operation prompt subagents }
      | _ => p
    | some _, .textAppend _ => p

/-- The text of a final Item that goes beyond the text so far. -/
def remainder (state final : Text) : Text :=
  if state.length < final.length && state.isPrefixOf final then final.drop state.length
  else if state = [] && final ≠ [] then final
  else []

/-- The narration Item gets its final text, and its block ends. -/
def completeNarration (itemId : String) (final : Text) : TurnProjector Result :=
  let state := ((p.narration itemId).map (·.text)).getD []
  let p := p.appendNarration itemId (remainder state final)
  match p.blockByItem itemId with
  | some index => p.endBlock index
  | none => p

/-- The tool of the Item is settled. -/
def settleTool (itemId : String) (item : ToolItem) (outcome : HostItemOutcome) : TurnProjector Result :=
  match p.tools.get? itemId with
  | none => p
  | some tool =>
    { p with tools := p.tools.delete itemId }.append .toolResult
      (.result p.turn p.step tool.callId (outcome ≠ HostItemOutcome.succeeded)
        (p.view.toolResult tool item outcome)) true (some [tool.callSeq])

def itemCompleted (item : HostItem) (outcome : HostItemOutcome) : TurnProjector Result :=
  if p.finished then p
  else
    match item with
    | .narration kind itemId final => (p.seen kind itemId).completeNarration itemId final
    | .tool itemId item => (p.startTool itemId item).settleTool itemId item outcome

/-- The outcome of the tools that the Harness never completed. -/
def unsettledOutcome (outcome : TurnOutcome) : HostItemOutcome :=
  match outcome with
  | .cancelled _ => .cancelled none
  | _ => .failed ⟨"unsettled", "The Harness did not report a result for this tool."⟩

def endReason (outcome : TurnOutcome) : EndReason :=
  match outcome with
  | .succeeded => .completed
  | .unknown _ => if p.live then .interrupted else .completed
  | .cancelled _ => .aborted
  | .failed error => .error error.message error.code

/-- Settles the tools that are still open. -/
def settleTools (outcome : TurnOutcome) : TurnProjector Result :=
  p.tools.values.foldl (fun p tool =>
    p.itemCompleted (.tool tool.callId tool.item) (unsettledOutcome outcome)) p

/-- Closes the Turn; the final answer is not given, null or an Item. -/
def finish (outcome : TurnOutcome) (finalAnswer : Option (Option String)) : TurnProjector Result :=
  if p.finished then p
  else
    let p := (p.settleTools outcome).closeStep
    let final := finalAnswer.map fun answer => answer.bind fun itemId =>
      (p.narration itemId).bind (·.step)
    { p with finished := true }.append .turnEnd (.turnEnd p.turn (p.endReason outcome) final) false none

/-- How the Turn begins. -/
inductive Beginning where
  | user (content : List InputPart) (requestId : Option String)
  | autonomous (content : List InputPart)
  deriving DecidableEq, Repr

def start : Beginning → TurnProjector Result
  | .user content requestId => p.begin content requestId
  | .autonomous content => p.beginAutonomous content

/-- A call of the Harness. -/
inductive Call where
  | itemStarted (item : HostItem)
  | itemUpdated (itemId : String) (update : HostItemUpdate)
  | itemCompleted (item : HostItem) (outcome : HostItemOutcome)
  | steer (content : List InputPart) (requestId : Option String)
  | finish (outcome : TurnOutcome) (finalAnswer : Option (Option String))
  deriving DecidableEq, Repr

def call : Call → TurnProjector Result
  | .itemStarted item => p.itemStarted item
  | .itemUpdated itemId update => p.itemUpdated itemId update
  | .itemCompleted item outcome => p.itemCompleted item outcome
  | .steer content requestId => p.steer content requestId
  | .finish outcome finalAnswer => p.finish outcome finalAnswer

end TurnProjector

end CodexHost.Source.SessionRuntime
