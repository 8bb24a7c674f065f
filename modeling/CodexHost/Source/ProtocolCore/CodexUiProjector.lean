import CodexHost.Foundation.Command
import CodexHost.Foundation.OrderedMap
import CodexHost.Source.SharedContracts

/-!
# The projector of one external Turn

The Item ledger of `CodexTurnProjector`, `packages/protocol-core/src/codex-ui-projector.ts:781-1353`:
what it accepts, what it refuses and which Turn it completes. Which notifications an Item surfaces
as (deferred empty text, Todo and file tools, media, reasoning transcripts) is the parameter
`WireView`. Of an Item the ledger reads its id, its type and the text of a textual one.
-/
namespace CodexHost.Source.ProtocolCore.CodexUiProjector
open Foundation Source.SharedContracts

abbrev HostItemId := String

abbrev HostInteractionId := String

inductive HostItemType where
  | userMessage | agentMessage | reasoning | contextCompaction | commandExecution | toolExecution
  | fileChange | subagentDelegation
  deriving DecidableEq, Repr

structure HostItem where
  itemId : HostItemId
  type : HostItemType
  text : String
  deriving DecidableEq, Repr

inductive HostItemUpdate where
  | textAppend (text : String)
  | outputAppend
  | outputReplace
  | fileChangesReplace
  | subagentsReplace
  deriving DecidableEq, Repr

inductive HostItemOutcome where
  | succeeded
  | failed (message : String)
  | cancelled
  deriving DecidableEq, Repr

inductive TurnOutcome where
  | succeeded
  | failed (message : String)
  | cancelled
  deriving DecidableEq, Repr

inductive InteractionClosedReason where
  | responded | cancelled | expired | superseded
  deriving DecidableEq, Repr

/-- A Turn event without its Turn id; `nativeTurnRef` says whether one was given. -/
inductive ProjectableHostEvent where
  | turnStarted
  | itemStarted (item : HostItem)
  | itemUpdated (itemId : HostItemId) (update : HostItemUpdate)
  | itemCompleted (item : HostItem) (outcome : HostItemOutcome)
  | itemDetached (itemId : HostItemId)
  | interactionClosed (interactionId : HostInteractionId) (reason : InteractionClosedReason)
  | turnCompleted (nativeTurnRef ephemeral : Bool) (outcome : TurnOutcome)
  deriving DecidableEq, Repr

structure ProjectedItem where
  item : HostItem
  outcome : Option HostItemOutcome
  deriving DecidableEq, Repr

inductive ProjectedInteraction where
  | approval
  | question (itemId : HostItemId) (syntheticItem : Bool)
  deriving DecidableEq, Repr

inductive TurnStatus where
  | completed | interrupted | failed
  deriving DecidableEq, Repr

structure CompletedTurn where
  id : HostTurnId
  status : TurnStatus
  error : Option String
  deriving DecidableEq, Repr

inductive ThreadStatus where
  | active | idle
  deriving DecidableEq, Repr

/-- What the client is sent; of an Item notification only its method is kept. -/
inductive Message where
  | turnStarted (turnId : HostTurnId)
  | item (turnId : HostTurnId) (method : String)
  | error (turnId : HostTurnId) (message : String)
  | turnCompleted (turn : CompletedTurn)
  | threadStatusChanged (status : ThreadStatus)
  | threadStarted
  | manualCompactionStarted (turnId : HostTurnId)
  | interactionRequest (interactionId : HostInteractionId)
  | serverRequestResolved (interactionId : HostInteractionId)
  | queueChanged
  deriving DecidableEq, Repr

structure CodexTurnProjector where
  turnId : HostTurnId
  /-- Whether the Turn has an `initialInput` to show. -/
  input : Bool
  interactions : OrderedMap HostInteractionId ProjectedInteraction
  items : OrderedMap HostItemId ProjectedItem
  detached : List HostItemId
  started : Bool
  completed : Bool
  deriving DecidableEq

structure CodexTurnProjection where
  messages : List Message
  completedTurn : Option CompletedTurn := none
  deriving DecidableEq

/-- Which Item notifications an event surfaces as. -/
structure WireView where
  items : CodexTurnProjector → ProjectableHostEvent → List String

abbrev ProjectorCommand := Command CodexTurnProjector Unit

def turnStatus : TurnOutcome → TurnStatus
  | .succeeded => .completed
  | .cancelled => .interrupted
  | .failed _ => .failed

def turnError : TurnOutcome → Option String
  | .failed message => some message
  | _ => none

def applyUpdate (item : HostItem) : HostItemUpdate → Option HostItem
  | .textAppend text =>
    if item.type = .agentMessage ∨ item.type = .reasoning then
      some { item with text := item.text ++ text }
    else none
  | .outputAppend => if item.type = .commandExecution then some item else none
  | .outputReplace => if item.type = .toolExecution then some item else none
  | .fileChangesReplace => if item.type = .fileChange then some item else none
  | .subagentsReplace => if item.type = .subagentDelegation then some item else none

namespace CodexTurnProjector

def new (turnId : HostTurnId) (input : Bool) : CodexTurnProjector where
  turnId := turnId
  input := input
  interactions := .empty
  items := .empty
  detached := []
  started := false
  completed := false

/-- A completed Turn still owns detached Items that have not settled. -/
def hasOpenDetachedItems (projector : CodexTurnProjector) : Bool :=
  projector.detached.any fun itemId =>
    (projector.items.get? itemId).any fun projected => projected.outcome.isNone

/-- An event that a completed Turn still takes: it is about one of its detached Items. -/
def outlives (projector : CodexTurnProjector) : ProjectableHostEvent → Bool
  | .itemUpdated itemId _ => projector.detached.contains itemId
  | .itemCompleted item _ => projector.detached.contains item.itemId
  | _ => false

def setItem (projector : CodexTurnProjector) (projected : ProjectedItem) : CodexTurnProjector :=
  { projector with items := projector.items.set projected.item.itemId projected }

def activeItem (itemId : HostItemId) : ProjectorCommand ProjectedItem := do
  let projector ← get
  match projector.items.get? itemId with
  | none => throw ()
  | some projected => if projected.outcome.isSome then throw () else pure projected

def requireStarted : ProjectorCommand Unit := do
  let projector ← get
  if projector.started then pure () else throw ()

def surface (view : WireView) (event : ProjectableHostEvent) : ProjectorCommand CodexTurnProjection := do
  let projector ← get
  pure ⟨(view.items projector event).map (.item projector.turnId), none⟩

def startTurn : ProjectorCommand CodexTurnProjection := do
  let projector ← get
  if projector.started then throw ()
  else
    set { projector with started := true }
    pure ⟨.turnStarted projector.turnId :: (if projector.input then
        [.item projector.turnId "item/started", .item projector.turnId "item/completed"]
      else []), none⟩

def startItem (view : WireView) (item : HostItem) : ProjectorCommand CodexTurnProjection := do
  requireStarted
  let projector ← get
  if projector.items.has item.itemId then throw ()
  else
    set (projector.setItem ⟨item, none⟩)
    surface view (.itemStarted item)

def updateItem (view : WireView) (itemId : HostItemId) (update : HostItemUpdate) :
    ProjectorCommand CodexTurnProjection := do
  let projected ← activeItem itemId
  match applyUpdate projected.item update with
  | none => throw ()
  | some next =>
    modify (·.setItem { projected with item := next })
    surface view (.itemUpdated itemId update)

/-- A Question that waits at this Item. -/
def awaits (itemId : HostItemId) : ProjectedInteraction → Bool
  | .question waiting _ => waiting = itemId
  | .approval => false

def completeItem (view : WireView) (item : HostItem) (outcome : HostItemOutcome) :
    ProjectorCommand CodexTurnProjection := do
  let projector ← get
  if projector.interactions.values.any (awaits item.itemId) then throw ()
  else
    let projected ← activeItem item.itemId
    if item.type ≠ projected.item.type then throw ()
    else if (projected.item.type = .agentMessage ∨ projected.item.type = .reasoning) ∧
        item.text ≠ projected.item.text then throw ()
    else
      modify (·.setItem ⟨item, some outcome⟩)
      surface view (.itemCompleted item outcome)

def questionOutcome : InteractionClosedReason → HostItemOutcome
  | .responded => .succeeded
  | _ => .cancelled

def closeInteraction (view : WireView) (interactionId : HostInteractionId)
    (reason : InteractionClosedReason) : ProjectorCommand CodexTurnProjection := do
  let projector ← get
  match projector.interactions.get? interactionId with
  | none => throw ()
  | some interaction =>
    set { projector with interactions := projector.interactions.delete interactionId }
    match interaction with
    | .approval | .question _ false => pure ⟨[], none⟩
    | .question itemId true =>
      let projected ← activeItem itemId
      completeItem view projected.item (questionOutcome reason)

/-- An Item that keeps the Turn from completing. -/
def holds (projector : CodexTurnProjector) (projected : ProjectedItem) : Bool :=
  projected.outcome.isNone && !projector.detached.contains projected.item.itemId

def completeTurn (view : WireView) (event : ProjectableHostEvent) (outcome : TurnOutcome) :
    ProjectorCommand CodexTurnProjection := do
  requireStarted
  let projector ← get
  if projector.interactions.values ≠ [] then throw ()
  else if projector.items.values.any projector.holds then throw ()
  else
    set { projector with completed := true }
    let surfaced ← surface view event
    let turn : CompletedTurn := ⟨projector.turnId, turnStatus outcome, turnError outcome⟩
    pure ⟨surfaced.messages ++
      (turn.error.map (Message.error projector.turnId)).toList ++ [.turnCompleted turn], some turn⟩

def detachItem (itemId : HostItemId) : ProjectorCommand CodexTurnProjection := do
  let projected ← activeItem itemId
  if projected.item.type ≠ .commandExecution then throw ()
  else
    modify fun projector => { projector with detached := projector.detached ++ [itemId] }
    pure ⟨[], none⟩

def project (view : WireView) (event : ProjectableHostEvent) : ProjectorCommand CodexTurnProjection := do
  let projector ← get
  if projector.completed && !projector.outlives event then throw ()
  else match event with
    | .itemDetached itemId => detachItem itemId
    | .turnStarted => startTurn
    | .itemStarted item => startItem view item
    | .itemUpdated itemId update => updateItem view itemId update
    | .itemCompleted item outcome => completeItem view item outcome
    | .interactionClosed interactionId reason => closeInteraction view interactionId reason
    | .turnCompleted _ _ outcome => completeTurn view event outcome

/-- `projectApproval` and the common part of `projectQuestion`. -/
def openInteraction (interactionId : HostInteractionId) : ProjectorCommand Unit := do
  requireStarted
  let projector ← get
  if projector.completed then throw ()
  else if projector.interactions.has interactionId then throw ()
  else pure ()

def addInteraction (interactionId : HostInteractionId) (interaction : ProjectedInteraction) :
    ProjectorCommand Unit :=
  modify fun projector =>
    { projector with interactions := projector.interactions.set interactionId interaction }

def projectApproval (interactionId : HostInteractionId) : ProjectorCommand CodexTurnProjection := do
  openInteraction interactionId
  addInteraction interactionId .approval
  pure ⟨[], none⟩

def projectQuestion (view : WireView) (interactionId : HostInteractionId)
    (itemId : Option HostItemId) (syntheticItemId : HostItemId) :
    ProjectorCommand CodexTurnProjection := do
  openInteraction interactionId
  match itemId with
  | some itemId =>
    let projected ← activeItem itemId
    if projected.item.type ≠ .toolExecution then throw ()
    else
      addInteraction interactionId (.question itemId false)
      pure ⟨[], none⟩
  | none =>
    let started ← startItem view ⟨syntheticItemId, .toolExecution, ""⟩
    addInteraction interactionId (.question syntheticItemId true)
    pure started

/-- The synthetic Items that closing the open Questions completes. -/
def syntheticItems (projector : CodexTurnProjector) : List HostItemId :=
  projector.interactions.values.filterMap fun
    | .question itemId true => some itemId
    | _ => none

/-- Closes a failed output stream with what this projector has already accepted. -/
def failureEvents (projector : CodexTurnProjector) (message : String) : List ProjectableHostEvent :=
  (if projector.started then [] else [.turnStarted]) ++
  projector.interactions.keys.map (.interactionClosed · .cancelled) ++
  (projector.items.values.filter fun projected =>
    projected.outcome.isNone && !projector.syntheticItems.contains projected.item.itemId).map
      (fun projected => .itemCompleted projected.item (.failed message)) ++
  (if projector.completed then [] else [.turnCompleted false false (.failed message)])

end CodexTurnProjector

end CodexHost.Source.ProtocolCore.CodexUiProjector
