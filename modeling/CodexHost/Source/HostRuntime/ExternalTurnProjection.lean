import CodexHost.Foundation.Transition
import CodexHost.Source.MappingStore.Delegations
import CodexHost.Source.ProtocolCore.CodexUiProjector

/-!
# The output consumer of one external Thread

`ExternalTurnProjection.project` (`packages/host-runtime/src/external-turn-projection.ts`), the
consumer around it (`#consumeHarnessOutputs`, `#projectHarnessOutput`, `#startNextQueuedExternalTurn`
of `app-server-host.ts`), `settleExternalOutputFailure`, and what they use of `ExternalTurnSteering`
and `ExternalThreadQueue`. `Surroundings` says how each awaited step ends while one output is
projected. `Host.log` records the messages written and the Turns settled, in order.
-/
namespace CodexHost.Source.HostRuntime.ExternalTurnProjection
open Foundation Source.SharedContracts Source.MappingStore
  CodexHost.Source.ProtocolCore.CodexUiProjector

/-- The steps that are awaited while an output is projected. -/
inductive Awaited where
  | usageNotice
  | submitPrewarm
  | threadStarted
  | resolveInteraction
  | turnIdentity
  | usageMeasurements
  | delegationLookup
  | delegationStatus
  | manualCompaction
  | message (index : Nat)
  | threadStatus
  | interactionRequest
  | queuePublication
  deriving DecidableEq, Repr

/-- How the Session takes the Turn of the next queued submission, and whether the Host may start
one: it is not closing, the Thread is loaded and no command is being resolved. -/
inductive QueuedStart where
  | blocked
  | accepted (turnId : HostTurnId) (ephemeral : Bool)
  | refused
  deriving DecidableEq, Repr

structure Surroundings where
  view : WireView
  rejects : Awaited → Bool
  hasRunningSubagents : Bool
  queuedStart : QueuedStart
  syntheticItemId : HostItemId
  /-- Whether an interaction request can be shown, and whether its refusal was taken. -/
  showable : Bool
  refusalTaken : Bool

/-- A steer waiting at its Thread. While the Session's capabilities are still being read, its
`resolve` does nothing; afterwards `outcome` is what its terminal promise holds. -/
structure PendingSteer where
  turnId : HostTurnId
  reading : Bool
  outcome : Option TurnOutcome
  deriving DecidableEq, Repr

inductive ExternalQueuePausedReason where
  | interrupted | outcomeUnknown | failed
  deriving DecidableEq, Repr

structure ExternalThreadQueue where
  items : List String
  pausedReason : Option ExternalQueuePausedReason
  deriving DecidableEq, Repr

/-- What the queue was asked for when a Turn had completed. -/
inductive QueueAnswer where
  | blocked
  | nothingToStart
  | started (item : String)
  | refused (item : String)
  deriving DecidableEq, Repr

inductive Entry where
  | sent (message : Message)
  /-- The Thread is marked not running; a Turn that is not ephemeral is in its list. -/
  | finished (turn : CompletedTurn) (ephemeral : Bool)
  | steered (pending : PendingSteer) (turnId : HostTurnId) (outcome : TurnOutcome)
  | advanced (queue : ExternalThreadQueue) (answer : QueueAnswer)
  | paused (queue : ExternalThreadQueue) (reason : ExternalQueuePausedReason)
  deriving DecidableEq, Repr

structure ExternalThread where
  running : Bool
  activeTurnId : Option HostTurnId
  projectedTurns : OrderedMap HostTurnId CodexTurnProjector
  turns : List CompletedTurn
  ephemeralTurnIds : List HostTurnId
  manualCompactionTurn : Option HostTurnId
  ignoredInteractionIds : List HostInteractionId
  unsubmittedPrewarm : Bool
  status : ThreadStatus
  persistenceError : Bool
  sessionUnavailable : Bool
  deriving DecidableEq

structure Host where
  thread : ExternalThread
  /-- The status of the Delegation whose child this Thread is. -/
  delegation : Option DelegationStatus
  pending : Option PendingSteer
  queue : ExternalThreadQueue
  /-- Whether the outputs of the Session are still consumed. -/
  consuming : Bool
  log : List Entry
  deriving DecidableEq

abbrev HostCommand := Command Host Unit

variable (around : Surroundings)

def Host.onThread (f : ExternalThread → ExternalThread) (host : Host) : Host :=
  { host with thread := f host.thread }

def Host.note (entry : Entry) (host : Host) : Host := { host with log := host.log ++ [entry] }

/-- A rejected step throws. -/
def awaitStep (step : Awaited) : HostCommand Unit :=
  if around.rejects step then throw () else pure ()

/-- A write that is rejected did not reach the client. -/
def writeJson (step : Awaited) (message : Message) : HostCommand Unit := do
  awaitStep around step
  modify (·.note (.sent message))

def writeMessages : Nat → List Message → HostCommand Unit
  | _, [] => pure ()
  | index, message :: rest => do
    writeJson around (.message index) message
    writeMessages (index + 1) rest

def setThreadStatus (status : ThreadStatus) : HostCommand Unit := do
  modify (·.onThread fun thread => { thread with status := status })
  writeJson around .threadStatus (.threadStatusChanged status)

/-! ## Queue and steering -/

namespace ExternalThreadQueue

/-- The queue and whether it was changed. -/
def pause (queue : ExternalThreadQueue) (reason : ExternalQueuePausedReason) : ExternalThreadQueue × Bool :=
  if queue.items = [] ∨ queue.pausedReason = some reason then (queue, false)
  else ({ queue with pausedReason := some reason }, true)

/-- `resume`, then `delete`: an empty queue keeps no state. -/
def delivered (queue : ExternalThreadQueue) (item : String) : ExternalThreadQueue :=
  ⟨queue.items.erase item, none⟩

end ExternalThreadQueue

def publishExternalQueue : HostCommand Unit := writeJson around .queuePublication .queueChanged

/-- A rejected publication only ends a task that nothing awaits. -/
def bestEffort (command : HostCommand Unit) : HostCommand Unit := do
  try command catch _ => pure ()

def pauseQueue (reason : ExternalQueuePausedReason) : HostCommand Unit := do
  let host ← get
  if (host.queue.pause reason).2 then
    set { host with queue := (host.queue.pause reason).1 }
    publishExternalQueue around
  else pure ()

/-- The Host state of a Turn that was taken: `#beginExternalTurn`, `#beginExternalCommand`. -/
def ExternalThread.begin (turnId : HostTurnId) (input ephemeral : Bool) (thread : ExternalThread) :
    ExternalThread :=
  { thread with
    running := true
    activeTurnId := some turnId
    projectedTurns := thread.projectedTurns.set turnId (.new turnId input)
    ephemeralTurnIds :=
      if ephemeral then thread.ephemeralTurnIds ++ [turnId] else thread.ephemeralTurnIds }

/-- `thread.running || steering.hasPending(thread.id)` -/
def Host.busy (host : Host) : Bool := host.thread.running || host.pending.isSome

/-- The submission that can be started now. -/
def Host.nextQueued (host : Host) : Option String :=
  if host.busy || host.queue.pausedReason.isSome then none else host.queue.items.head?

def QueueAnswer.of (host : Host) : QueuedStart → QueueAnswer
  | .blocked => .blocked
  | .accepted _ _ => (host.nextQueued.map .started).getD .nothingToStart
  | .refused => (host.nextQueued.map .refused).getD .nothingToStart

def startQueuedExternalTurn (turnId : HostTurnId) (ephemeral : Bool) (item : String) : HostCommand Unit := do
  modify (·.onThread (·.begin turnId true ephemeral))
  modify fun host => { host with queue := host.queue.delivered item }
  publishExternalQueue around

def startNextQueuedExternalTurn : HostCommand Unit := do
  let host ← get
  let answer := QueueAnswer.of host around.queuedStart
  modify (·.note (.advanced host.queue answer))
  bestEffort (match answer, around.queuedStart with
    | .started item, .accepted turnId ephemeral => do
      try startQueuedExternalTurn around turnId ephemeral item
      catch _ => pauseQueue around .failed
    | .refused _, _ => pauseQueue around .failed
    | _, _ => pure ())

/-- Resolving a promise that is resolved already does nothing. -/
def PendingSteer.terminal (pending : PendingSteer) (turnId : HostTurnId) (outcome : TurnOutcome) :
    PendingSteer :=
  if pending.turnId = turnId ∧ pending.reading = false ∧ pending.outcome = none then
    { pending with outcome := some outcome }
  else pending

/-- The pending steer leaves once its rejection has gone through. -/
def fault : HostCommand Unit := modify fun host => { host with pending := none }

/-- A steer that is pending gets the outcome; otherwise the queue is advanced or paused. -/
def handOver (turnId : HostTurnId) (outcome : TurnOutcome) : HostCommand Unit := do
  let host ← get
  match host.pending with
  | some pending =>
    set (Host.note (.steered pending turnId outcome)
      { host with pending := some (pending.terminal turnId outcome) })
  | none =>
    match outcome with
    | .succeeded => startNextQueuedExternalTurn around
    | .cancelled => do
      modify (·.note (.paused host.queue .interrupted))
      pauseQueue around .interrupted
    | .failed _ => do
      modify (·.note (.paused host.queue .failed))
      pauseQueue around .failed

/-! ## The projection of one Turn event -/

/-- `persistTerminalIdentity`: whether the identity of the Turn is not persisted. -/
def persistTerminalIdentity (nativeTurnRef : Bool) (outcome : TurnOutcome) : HostCommand Bool :=
  if nativeTurnRef then do
    let fails := around.rejects .turnIdentity || around.rejects .usageMeasurements
    modify (·.onThread fun thread => { thread with persistenceError := fails })
    pure fails
  else do
    awaitStep around .usageMeasurements
    pure (outcome = .succeeded)

def identityFailure : ProjectableHostEvent :=
  .turnCompleted false false (.failed "External Turn identity could not be persisted")

def ephemeral (thread : ExternalThread) (turnId : HostTurnId) : ProjectableHostEvent → Bool
  | .turnCompleted _ ephemeral _ => ephemeral || thread.ephemeralTurnIds.contains turnId
  | _ => false

/-- The event that is projected: a completion whose identity is not persisted becomes a failure. -/
def persisted (turnId : HostTurnId) (event : ProjectableHostEvent) : HostCommand ProjectableHostEvent := do
  let host ← get
  match event with
  | .turnCompleted nativeTurnRef _ outcome =>
    if ephemeral host.thread turnId event then pure event
    else if ← persistTerminalIdentity around nativeTurnRef outcome then pure identityFailure
    else pure event
  | _ => pure event

/-- Runs a projector command on the Turn's projector; its changes stay after a throw. -/
def onProjector {α : Type} (turnId : HostTurnId) (command : ProjectorCommand α) : HostCommand α := do
  let host ← get
  match host.thread.projectedTurns.get? turnId with
  | none => throw ()
  | some projector =>
    set (host.onThread fun thread =>
      { thread with projectedTurns := thread.projectedTurns.set turnId (command.exec projector).2 })
    Command.lift (command.exec projector).1

def hasOpenDetachedItems (thread : ExternalThread) (turnId : HostTurnId) : Bool :=
  (thread.projectedTurns.get? turnId).any (·.hasOpenDetachedItems)

def forgetProjection (thread : ExternalThread) (turnId : HostTurnId) : ExternalThread :=
  { thread with projectedTurns := thread.projectedTurns.delete turnId }

/-- The Thread once its Turn has completed: the Turn listed, the Thread not running. -/
def ExternalThread.finish (turn : CompletedTurn) (turnId : HostTurnId) (ephemeral : Bool)
    (thread : ExternalThread) : ExternalThread :=
  let listed :=
    if ephemeral then
      { thread with
        ephemeralTurnIds := thread.ephemeralTurnIds.erase turnId
        manualCompactionTurn := none }
    else { thread with turns := thread.turns ++ [turn] }
  let kept := { listed with running := false, activeTurnId := none }
  if hasOpenDetachedItems kept turnId then kept else forgetProjection kept turnId

def delegationStatusOf : TurnStatus → DelegationStatus
  | .failed => .failed
  | .interrupted => .interrupted
  | .completed => .completed

/-- The status a Delegation has after `setDelegationStatus`. -/
def settledStatus (current status : DelegationStatus) : DelegationStatus :=
  if current = status then current
  else if terminal current && !terminal status then current
  else status

/-- `getDelegationByChild`, then `setDelegationStatus` of what it found. -/
def settleDelegation (status : DelegationStatus) : HostCommand Unit := do
  awaitStep around .delegationLookup
  let host ← get
  match host.delegation with
  | none => pure ()
  | some current =>
    awaitStep around .delegationStatus
    set { host with delegation := some (settledStatus current status) }

def isManualCompaction (thread : ExternalThread) (turnId : HostTurnId) : ProjectableHostEvent → Bool
  | .itemStarted item =>
    item.type = .contextCompaction && thread.manualCompactionTurn = some turnId
  | _ => false

/-- A detached Item that was the last open one of a completed Turn. -/
def lastDetached (thread : ExternalThread) (turnId : HostTurnId) : ProjectableHostEvent → Bool
  | .itemCompleted _ _ =>
    (thread.projectedTurns.get? turnId).any fun projector =>
      projector.completed && !projector.hasOpenDetachedItems
  | _ => false

/-- What `project` does from the completion of the projector to its end. -/
def settleTurn (turnId : HostTurnId) (ephemeral : Bool) (outcome : TurnOutcome)
    (turn : CompletedTurn) (messages : List Message) : HostCommand Unit := do
  modify (·.onThread (·.finish turn turnId ephemeral))
  modify (·.note (.finished turn ephemeral))
  settleDelegation around (delegationStatusOf turn.status)
  writeMessages around 0 messages
  setThreadStatus around (if around.hasRunningSubagents then .active else .idle)
  handOver around turnId outcome

def announceCompaction (turnId : HostTurnId) (event : ProjectableHostEvent) : HostCommand Unit := do
  let host ← get
  if isManualCompaction host.thread turnId event then
    writeJson around .manualCompaction (.manualCompactionStarted turnId)
  else pure ()

def forgetLastDetached (turnId : HostTurnId) (event : ProjectableHostEvent) : HostCommand Unit := do
  let host ← get
  if lastDetached host.thread turnId event then modify (·.onThread (forgetProjection · turnId))
  else pure ()

/-- The steps of `project` after an event that does not complete the Turn. -/
def publish (turnId : HostTurnId) (event : ProjectableHostEvent) (messages : List Message) :
    HostCommand Unit := do
  if event = .turnStarted then setThreadStatus around .active
  announceCompaction around turnId event
  forgetLastDetached turnId event
  writeMessages around 0 messages

def projectPersisted (turnId : HostTurnId) (ephemeral : Bool) (event : ProjectableHostEvent) :
    HostCommand Unit := do
  let result ← onProjector turnId (CodexTurnProjector.project around.view event)
  match event with
  | .turnCompleted _ _ outcome =>
    match result.completedTurn with
    | none => throw ()
    | some turn => settleTurn around turnId ephemeral outcome turn result.messages
  | _ => publish around turnId event result.messages

/-- Whether the closing of this Interaction is not shown. -/
def ignored (thread : ExternalThread) : ProjectableHostEvent → Option HostInteractionId
  | .interactionClosed interactionId _ =>
    if thread.ignoredInteractionIds.contains interactionId then some interactionId else none
  | _ => none

def resolveInteraction : ProjectableHostEvent → HostCommand Unit
  | .interactionClosed interactionId _ =>
    writeJson around .resolveInteraction (.serverRequestResolved interactionId)
  | _ => pure ()

def project (turnId : HostTurnId) (event : ProjectableHostEvent) : HostCommand Unit := do
  awaitStep around .usageNotice
  let host ← get
  if (host.thread.projectedTurns.get? turnId).isNone then throw ()
  else match ignored host.thread event with
    | some interactionId =>
      modify (·.onThread fun thread =>
        { thread with ignoredInteractionIds := thread.ignoredInteractionIds.erase interactionId })
    | none =>
      resolveInteraction around event
      let shown ← persisted around turnId event
      projectPersisted around turnId (ephemeral host.thread turnId event) shown

/-- `turn.autonomous.started` -/
def projectAutonomous (turnId : HostTurnId) (input : Bool) : HostCommand Unit := do
  let host ← get
  if host.thread.running || host.thread.activeTurnId.isSome then throw ()
  else
    set (host.onThread (·.begin turnId input false))
    if host.thread.unsubmittedPrewarm then
      awaitStep around .submitPrewarm
      modify (·.onThread fun thread => { thread with unsubmittedPrewarm := false })
      writeJson around .threadStarted .threadStarted
    else pure ()

/-- A request that cannot be shown is refused; its closing is then not shown either. -/
def refuse (interactionId : HostInteractionId) : HostCommand Unit :=
  if around.refusalTaken then
    modify (·.onThread fun thread =>
      { thread with ignoredInteractionIds := thread.ignoredInteractionIds ++ [interactionId] })
  else pure ()

/-- `#projectApproval`, `#projectQuestion` -/
def projectInteraction (turnId : HostTurnId) (interactionId : HostInteractionId)
    (command : ProjectorCommand CodexTurnProjection) : HostCommand Unit := do
  let host ← get
  match host.thread.projectedTurns.get? turnId with
  | none => throw ()
  | some projector =>
    match around.showable, (command.exec projector).1 with
    | true, .ok _ => do
      let result ← onProjector turnId command
      writeMessages around 0 result.messages
      writeJson around .interactionRequest (.interactionRequest interactionId)
    | _, _ => refuse around interactionId

/-! ## The consumer -/

inductive HarnessOutput where
  | event (turnId : HostTurnId) (event : ProjectableHostEvent)
  | autonomous (turnId : HostTurnId) (input : Bool)
  | approval (turnId : HostTurnId) (interactionId : HostInteractionId)
  | question (turnId : HostTurnId) (interactionId : HostInteractionId) (itemId : Option HostItemId)
  | sessionFaulted
  deriving DecidableEq, Repr

def projectHarnessOutput : HarnessOutput → HostCommand Unit
  | .event turnId event => project around turnId event
  | .autonomous turnId input => projectAutonomous around turnId input
  | .approval turnId interactionId =>
    projectInteraction around turnId interactionId (CodexTurnProjector.projectApproval interactionId)
  | .question turnId interactionId itemId =>
    projectInteraction around turnId interactionId
      (CodexTurnProjector.projectQuestion around.view interactionId itemId around.syntheticItemId)
  | .sessionFaulted => do
    fault
    modify (·.onThread fun thread => { thread with sessionUnavailable := true })
    pauseQueue around .outcomeUnknown

/-- Events projected one after the other, each in surroundings of its own. -/
def projectAll (closing : HostTurnId → ProjectableHostEvent → Surroundings) :
    List (HostTurnId × ProjectableHostEvent) → HostCommand Unit
  | [] => pure ()
  | (turnId, event) :: rest => do
    project (closing turnId event) turnId event
    projectAll closing rest

/-- The events that close what every projected Turn has open. -/
def failureOutputs (thread : ExternalThread) (message : String) : List (HostTurnId × ProjectableHostEvent) :=
  thread.projectedTurns.entries.flatMap fun (turnId, projector) =>
    (projector.failureEvents message).map fun event => (turnId, event)

/-- A broken output consumer must neither leave the Turn running nor reuse its Session. -/
def settleExternalOutputFailure (closing : HostTurnId → ProjectableHostEvent → Surroundings) :
    HostCommand Unit := do
  modify fun host =>
    { host.onThread fun thread => { thread with sessionUnavailable := true } with consuming := false }
  let host ← get
  bestEffort (projectAll closing (failureOutputs host.thread "External Harness output failed"))

/-- The `finally` of the consumer. -/
def endOutputs (closeRequested : Bool) : HostCommand Unit := do
  fault
  let host ← get
  if !closeRequested && (host.thread.running || host.thread.activeTurnId.isSome) then
    bestEffort (pauseQueue around .outcomeUnknown)
  else pure ()

/-- One output, and when its projection throws the end of the consumer. -/
def consume (closing : HostTurnId → ProjectableHostEvent → Surroundings) (closeRequested : Bool)
    (output : HarnessOutput) : HostCommand Unit := do
  try projectHarnessOutput around output
  catch _ =>
    fault
    settleExternalOutputFailure closing
    endOutputs around closeRequested

/-! ## Runs -/

/-- What happens to the Thread: the Host begins a Turn, an output is consumed, a submission is
queued, a steer begins to wait, goes on from its capability read, is rejected or starts its Turn. -/
inductive Signal where
  | begins (turnId : HostTurnId) (input ephemeral manualCompaction : Bool)
  | output (around : Surroundings) (closing : HostTurnId → ProjectableHostEvent → Surroundings)
      (closeRequested : Bool) (output : HarnessOutput)
  | queued (item : String)
  | steers (reading : Bool)
  | steerRead (newTurn : Bool)
  | steerRejected
  | steerStarts (turnId : HostTurnId) (input ephemeral manualCompaction : Bool)

def Host.begin (turnId : HostTurnId) (input ephemeral manualCompaction : Bool) (host : Host) : Option Host :=
  if host.thread.running || host.thread.activeTurnId.isSome then none
  else
    let begun := host.onThread (·.begin turnId input ephemeral)
    some (if manualCompaction then
      begun.onThread fun thread => { thread with manualCompactionTurn := some turnId }
    else begun)

/-- A steer whose capability read has ended registers for the stop of the active Turn, or is over:
the Turn takes the input itself, or is no longer active. -/
def PendingSteer.read (host : Host) (newTurn : Bool) (pending : PendingSteer) : Option PendingSteer :=
  if newTurn && host.thread.running && (host.thread.activeTurnId = some pending.turnId) then
    some ⟨pending.turnId, false, none⟩
  else none

def step (host : Host) : Signal → Option Host
  | .begins turnId input ephemeral manualCompaction =>
    host.begin turnId input ephemeral manualCompaction
  | .output around closing closeRequested output =>
    if host.consuming then some ((consume around closing closeRequested output).exec host).2
    else none
  | .queued item => some { host with queue := { host.queue with items := host.queue.items ++ [item] } }
  | .steers reading =>
    match host.pending, host.thread.running, host.thread.activeTurnId with
    | none, true, some turnId => some { host with pending := some ⟨turnId, reading, none⟩ }
    | _, _, _ => none
  | .steerRead newTurn =>
    match host.pending with
    | some pending =>
      if pending.reading then some { host with pending := pending.read host newTurn } else none
    | none => none
  | .steerRejected => host.pending.map fun _ => { host with pending := none }
  | .steerStarts turnId input ephemeral manualCompaction =>
    match host.pending with
    | some ⟨_, _, some outcome⟩ =>
      if turnError outcome = none ∧ host.thread.persistenceError = false then
        Host.begin turnId input ephemeral manualCompaction { host with pending := none }
      else none
    | _ => none

/-- A Thread with no Turn yet. -/
def initial (unsubmittedPrewarm : Bool) (delegation : Option DelegationStatus) : Host where
  thread :=
    { running := false
      activeTurnId := none
      projectedTurns := .empty
      turns := []
      ephemeralTurnIds := []
      manualCompactionTurn := none
      ignoredInteractionIds := []
      unsubmittedPrewarm := unsubmittedPrewarm
      status := .idle
      persistenceError := false
      sessionUnavailable := false }
  delegation := delegation
  pending := none
  queue := ⟨[], none⟩
  consuming := true
  log := []

end CodexHost.Source.HostRuntime.ExternalTurnProjection
