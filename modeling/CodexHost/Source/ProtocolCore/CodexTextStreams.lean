import CodexHost.Source.HarnessAdapter.LocalMediaMarkdown
import CodexHost.Source.ProtocolCore.CodexUiProjector

/-!
# Text notifications of a Turn

`CodexTurnProjector`, `packages/protocol-core/src/codex-ui-projector.ts:595-612,1076-1287`: the notifications
of agent messages and reasoning. Other Items have their place in the ledger, and their notifications are left
out; so are the Interactions, which wait at Tools only. Each event comes with the media rewriting of its
moment; which agent message is inferred to be the final answer is an input.
-/
namespace CodexHost.Source.ProtocolCore.CodexTextStreams
open Foundation Source.HarnessAdapter.LocalMediaMarkdown
open CodexUiProjector (HostItemId HostItemType)

structure HostItem where
  itemId : HostItemId
  type : HostItemType
  text : Utf16
  deriving DecidableEq, Repr

inductive HostItemUpdate where
  | textAppend (text : Utf16)
  | outputAppend
  | outputReplace
  | fileChangesReplace
  | subagentsReplace
  deriving DecidableEq, Repr

/-- The type of an Item on the wire. -/
inductive Lane where
  | agentMessage | reasoning | commandExecution
  deriving DecidableEq, Repr

/-- A notification with the text it shows. The text of a reasoning Item is its summary, the text of its
transcript twin the aggregated output. -/
inductive Notification where
  | itemStarted (lane : Lane) (itemId : String) (text : Utf16)
  | delta (lane : Lane) (itemId : String) (delta : Utf16)
  | summaryPartAdded (itemId : String)
  | itemCompleted (lane : Lane) (itemId : String) (text : Utf16)
  deriving DecidableEq, Repr

structure ProjectedItem where
  item : HostItem
  media : Option LocalMediaMarkdownStream
  /-- `outcome !== null` -/
  completed : Bool
  reasoningPartStarted : Bool
  wireStarted : Bool
  deriving DecidableEq, Repr

structure State where
  started : Bool
  completed : Bool
  items : OrderedMap HostItemId ProjectedItem
  detached : List HostItemId
  /-- The notifications so far; for the properties only. -/
  wire : List Notification

def initial : State := ⟨false, false, .empty, [], []⟩

inductive Event where
  | turnStarted
  | itemStarted (item : HostItem)
  | itemUpdated (itemId : HostItemId) (update : HostItemUpdate)
  | itemCompleted (item : HostItem)
  | itemDetached (itemId : HostItemId)
  | turnCompleted (finalAnswer : Option HostItemId)
  deriving DecidableEq, Repr

def reasoningPreviewItemId (itemId : HostItemId) : String := itemId ++ "-summary"

/-- `/[\r\n]+$/u` -/
def reasoningDisplayText (text : Utf16) : Utf16 := text.rdropWhile fun unit => unit = 13 || unit = 10

def applyUpdate (item : HostItem) : HostItemUpdate → Option HostItem
  | .textAppend text =>
    if item.type = .agentMessage ∨ item.type = .reasoning then some { item with text := item.text ++ text }
    else none
  | .outputAppend => if item.type = .commandExecution then some item else none
  | .outputReplace => if item.type = .toolExecution then some item else none
  | .fileChangesReplace => if item.type = .fileChange then some item else none
  | .subagentsReplace => if item.type = .subagentDelegation then some item else none

def reasoningDelta (projected : ProjectedItem) (delta : Utf16) : List Notification :=
  let id := reasoningPreviewItemId projected.item.itemId
  (if projected.reasoningPartStarted then [] else [.summaryPartAdded id]) ++ [.delta .reasoning id delta]

namespace State
variable (s : State)

/-- The Item as it is now, and what it has sent. -/
def send (projected : ProjectedItem) (notifications : List Notification) : State :=
  { s with items := s.items.set projected.item.itemId projected, wire := s.wire ++ notifications }

def activeItem (itemId : HostItemId) : Option ProjectedItem :=
  (s.items.get? itemId).filter fun projected => !projected.completed

end State

section Steps
variable (project : ProjectLocalMedia)

def startItem (s : State) (item : HostItem) : Option State :=
  if !s.started then none
  else if s.items.has item.itemId then none
  else
    let media := if item.type = .agentMessage then some (createAgentMedia project item.text) else none
    let projected : ProjectedItem := ⟨item, media, false, false, false⟩
    let id := item.itemId
    match item.type, media with
    | .agentMessage, some media =>
      if media.text.length = 0 then some (s.send projected [])
      else some (s.send { projected with wireStarted := true } [.itemStarted .agentMessage id media.text])
    | .reasoning, _ =>
      let text := reasoningDisplayText item.text
      if text.length = 0 then some (s.send projected [])
      else
        some (s.send { projected with wireStarted := true, reasoningPartStarted := true }
          ([.itemStarted .reasoning (reasoningPreviewItemId id) [], .itemStarted .commandExecution id [],
            .delta .commandExecution id text] ++ reasoningDelta projected text))
    | _, _ => some (s.send projected [])

def updateItem (s : State) (itemId : HostItemId) (update : HostItemUpdate) : Option State :=
  (s.activeItem itemId).bind fun projected =>
    let previous := projected.item
    (applyUpdate previous update).bind fun next =>
      let projected := { projected with item := next }
      match update with
      | .textAppend text =>
        if text.length = 0 then some (s.send projected [])
        else
          match next.type, projected.media with
          | .agentMessage, some media =>
            let (delta, appended) := media.append project text
            let projected := { projected with media := some appended }
            if delta.length = 0 then some (s.send projected [])
            else
              some (s.send { projected with wireStarted := true }
                ((if projected.wireStarted then [] else [.itemStarted .agentMessage itemId media.text]) ++
                  [.delta .agentMessage itemId delta]))
          | .agentMessage, none => none
          | .reasoning, _ =>
            let previousText := reasoningDisplayText previous.text
            let delta := (reasoningDisplayText next.text).drop previousText.length
            if delta.length = 0 then some (s.send projected [])
            else
              some (s.send { projected with wireStarted := true, reasoningPartStarted := true }
                ((if projected.wireStarted then []
                  else [.itemStarted .reasoning (reasoningPreviewItemId itemId) [],
                    .itemStarted .commandExecution itemId []]) ++
                  [.delta .commandExecution itemId delta] ++ reasoningDelta projected delta))
          | _, _ => some (s.send projected [])
      | _ => some (s.send projected [])

/-- The completion of an agent message, after the text that was still held. -/
def completeMessage (s : State) (projected : ProjectedItem) (media : LocalMediaMarkdownStream) : State :=
  let id := projected.item.itemId
  let (delta, flushed) := media.flush project
  let started := projected.wireStarted || delta.length ≠ 0
  let sent : List Notification :=
    if delta.length = 0 then []
    else (if projected.wireStarted then [] else [.itemStarted .agentMessage id media.text]) ++
      [.delta .agentMessage id delta]
  s.send { projected with media := some flushed, completed := true, wireStarted := started }
    (if started then sent ++ [.itemCompleted .agentMessage id flushed.text] else [])

def completeItem (s : State) (item : HostItem) : Option State :=
  (s.activeItem item.itemId).bind fun projected =>
    if item.type ≠ projected.item.type then none
    else if (projected.item.type = .agentMessage ∨ projected.item.type = .reasoning) ∧
        item.text ≠ projected.item.text then none
    else
      let completed := { projected with item, completed := true }
      match item.type, projected.media with
      | .agentMessage, some media => some (completeMessage project s { projected with item } media)
      | .agentMessage, none => none
      | .reasoning, _ =>
        let text := reasoningDisplayText item.text
        some (s.send completed (if projected.wireStarted then
            [.itemCompleted .reasoning (reasoningPreviewItemId item.itemId) text,
              .itemCompleted .commandExecution item.itemId text]
          else []))
      | _, _ => some (s.send completed [])

/-- An Item that keeps the Turn from completing. -/
def holds (s : State) (projected : ProjectedItem) : Bool :=
  !projected.completed && projected.item.itemId ∉ s.detached

/-- The inferred phase of the final answer arrives with its completion, sent again. -/
def replay (s : State) (finalAnswer : Option HostItemId) : List Notification :=
  match finalAnswer.bind s.items.get? with
  | some projected =>
    match projected.item.type, projected.media with
    | .agentMessage, some media =>
      if projected.wireStarted && projected.completed then
        [.itemCompleted .agentMessage projected.item.itemId media.text]
      else []
    | _, _ => []
  | none => []

def completeTurn (s : State) (finalAnswer : Option HostItemId) : Option State :=
  if !s.started then none
  else if s.items.values.any (holds s) then none
  else some { s with completed := true, wire := s.wire ++ replay s finalAnswer }

/-- An event that a completed Turn still takes. -/
def outlives (s : State) : Event → Bool
  | .itemUpdated itemId _ => itemId ∈ s.detached
  | .itemCompleted item => item.itemId ∈ s.detached
  | _ => false

/-- `project`, where the event is accepted. -/
def step (s : State) (event : Event) : Option State :=
  if s.completed && !outlives s event then none
  else
    match event with
    | .turnStarted => if s.started then none else some { s with started := true }
    | .itemStarted item => startItem project s item
    | .itemUpdated itemId update => updateItem project s itemId update
    | .itemCompleted item => completeItem project s item
    | .itemDetached itemId =>
      (s.activeItem itemId).bind fun projected =>
        if projected.item.type ≠ .commandExecution then none
        else some { s with detached := s.detached ++ [itemId] }
    | .turnCompleted finalAnswer => completeTurn s finalAnswer

end Steps

/-- A sequence of events, each with the rewriting of its moment, that the projector accepts. -/
def run (s : State) (events : List (ProjectLocalMedia × Event)) : Option State :=
  events.foldlM (fun s event => step event.1 s event.2) s

end CodexHost.Source.ProtocolCore.CodexTextStreams
