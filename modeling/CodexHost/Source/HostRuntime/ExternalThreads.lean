import CodexHost.Foundation.Command
import CodexHost.Source.MappingStore.Operations

/-!
# External Threads, their repository and their runtime

The parts of `packages/host-runtime/src/external-thread-repository.ts` and
`external-thread-runtime.ts` that a fork and a rollback go through, and
`mapExternalThreadHarnessError`. A throw is a rejection. Whether a store operation rejects is an
input; it then changes nothing. What a Harness answers is an input too. A projected Turn is the
Host Turn id with the Turn of the snapshot.
-/
namespace CodexHost.Source.HostRuntime.ExternalThreads
open Foundation Source.SharedContracts Source.MappingStore

inductive HarnessErrorCode where
  | invalidRequest | sessionBusy | unsupported | sessionNotFound | checkpointNotFound
  | notInstalled | unavailable | authenticationRequired | configurationRequired
  | nativeFailure | protocolError | processExited | internalError | invalidState
  deriving DecidableEq, Repr

inductive HarnessOperation where
  | create | read | resume | fork | turn
  deriving DecidableEq, Repr

def HarnessOperation.name : HarnessOperation → String
  | .create => "create"
  | .read => "read"
  | .resume => "resume"
  | .fork => "fork"
  | .turn => "turn"

structure ExternalThreadRpcError where
  code : Int
  message : String
  deriving DecidableEq, Repr

def mapExternalThreadHarnessError (error : HarnessErrorCode) (operation : HarnessOperation) :
    ExternalThreadRpcError :=
  match error with
  | .invalidRequest =>
    ⟨-32602, "External Thread " ++ operation.name ++ " request is invalid"⟩
  | .sessionBusy =>
    ⟨-32072, if operation = .resume then
        "External Native Session is busy. Close it in the other client or wait for its active operation to finish, then retry."
      else "External Thread has an active operation"⟩
  | .unsupported => ⟨-32076, "External Harness does not support " ++ operation.name⟩
  | .sessionNotFound => ⟨-32079, "External Native Session is unavailable"⟩
  | .checkpointNotFound => ⟨-32080, "External Fork Checkpoint is unavailable"⟩
  | .notInstalled | .unavailable | .authenticationRequired | .configurationRequired =>
    ⟨-32077, "External Harness is unavailable"⟩
  | .nativeFailure | .protocolError | .processExited | .internalError | .invalidState =>
    ⟨-32076, "External Thread " ++ operation.name ++ " failed"⟩

/-- What an awaited call of a Harness ends with. -/
inductive Answer (α : Type) where
  | ok (value : α)
  | error (error : HarnessErrorCode)
  | rejects

structure HarnessSessionState where
  nativeRef : Option NativeSessionRef
  effectiveModel : Option String
  effectiveThinkingOptionId : Option String
  effectivePermissionModeId : Option String
  deriving DecidableEq, Repr

structure HarnessSessionCapabilities where
  selectModel : Bool
  selectThinkingOption : Bool
  selectPermissionMode : Bool
  permissionModeFixedAtCreate : Bool
  fork : Bool
  forkAcrossCwd : Bool
  rollbackLastTurn : Bool
  deriving DecidableEq, Repr

structure HarnessSession where
  handle : Nat
  capabilities : HarnessSessionCapabilities
  initialState : HarnessSessionState
  deriving DecidableEq, Repr

structure HostTurnSnapshot where
  nativeTurnRef : NativeTurnRef
  checkpoint : Option NativeCheckpointRef
  content : JsonText
  deriving DecidableEq, Repr

structure HostThreadSnapshot where
  turns : List HostTurnSnapshot
  state : Option HarnessSessionState
  deriving DecidableEq, Repr

structure ProjectedTurn where
  turnId : HostTurnId
  snapshot : HostTurnSnapshot
  deriving DecidableEq, Repr

/-- What `externalThreadValue` is made of. -/
structure ThreadValue where
  record : StoredThreadRecordV1
  turns : List ProjectedTurn
  sessionId : String
  running : Bool
  deriving DecidableEq, Repr

/-- A loaded Thread; its id, Harness and directory are those of its record. -/
structure ExternalThread where
  session : HarnessSession
  record : StoredThreadRecordV1
  sessionId : String
  state : HarnessSessionState
  requestedModel : Option String
  requestedThinkingOptionId : Option String
  requestedPermissionModeId : Option String
  transportModelId : String
  thread : ThreadValue
  turns : List ProjectedTurn
  running : Bool
  steeredTurnIds : List HostTurnId
  deriving DecidableEq, Repr

namespace ExternalThread

def id (thread : ExternalThread) : HostThreadId := thread.record.hostThreadId
def harnessId (thread : ExternalThread) : HarnessId := thread.record.harnessId
def cwd (thread : ExternalThread) : String := thread.record.cwd

end ExternalThread

structure ExternalConfigurationSelection where
  model : Option String
  thinkingOptionId : Option String
  permissionModeId : Option String
  deriving DecidableEq, Repr

/-- What an operation finds around it: the time, and functions of other modules. -/
structure Surroundings where
  now : Timestamp
  isAbsolute : String → Bool
  decodeExternalTransportSelection : HarnessId → String → Except Unit (Option ExternalConfigurationSelection)
  encodeExternalTransportSelection : HarnessId → ExternalConfigurationSelection → Except Unit String
  firstUserMessagePreview : List ProjectedTurn → Option String
  preview_bounded : ∀ turns preview, firstUserMessagePreview turns = some preview →
    EcmaString.length preview ≤ 4096
  hasAdapter : HarnessId → Bool
  subagentRunning : HostThreadId → Bool

/-- The stored records, the loaded Threads, and the Sessions that are open. -/
structure Host where
  records : OrderedMap HostThreadId StoredThreadRecordV1
  threads : OrderedMap HostThreadId ExternalThread
  steeredTurnIds : OrderedMap HostThreadId (List HostTurnId)
  sessions : List Nat
  nextHandle : Nat

abbrev HostCommand := Command Host Unit

/-- `#update` of the store, which may reject. -/
def update (rejects : Bool) (now : Timestamp) (hostThreadId : HostThreadId)
    (change : StoredThreadRecordV1 → Except StoreError (Option StoredThreadRecordV1))
    (preserveUpdatedAt : Bool) : HostCommand StoredThreadRecordV1 := do
  let host ← get
  match host.records.get? hostThreadId with
  | none => throw ()
  | some current =>
    match change current with
    | .error _ => throw ()
    | .ok none => if rejects then throw () else return current
    | .ok (some changed) =>
      match storedThreadRecordV1Schema { changed with
          revision := current.revision + 1
          updatedAt := if preserveUpdatedAt then current.updatedAt else now } with
      | .error _ => throw ()
      | .ok next =>
        if rejects then throw ()
        else
          set { host with records := host.records.set hostThreadId next }
          return next

def createProvisional (rejects : Bool) (now : Timestamp) (input : CreateProvisionalThreadInput) :
    HostCommand StoredThreadRecordV1 := do
  let host ← get
  if rejects then throw ()
  else
    match host.records.values.find? (·.createRequestId = input.createRequestId) with
    | some existing => return existing
    | none =>
      if host.records.has input.hostThreadId then throw ()
      else
        match storedThreadRecordV1Schema (provisionalRecord now input) with
        | .error _ => throw ()
        | .ok record =>
          set { host with records := host.records.set record.hostThreadId record }
          return record

def removeProvisional (rejects : Bool) (hostThreadId : HostThreadId) : HostCommand Unit := do
  let host ← get
  if (host.records.get? hostThreadId).any (·.state = .ready) then throw ()
  else if rejects then throw ()
  else set { host with records := host.records.delete hostThreadId }

/-- What the projection of a snapshot meets: the Subagent Threads that it stores, and whether one of
its steps rejects. -/
structure Projection where
  subagents : List StoredThreadRecordV1
  rejects : Bool

/-- A record of a Subagent Thread that the projection may store: of a child of the Thread, or, when
the Thread moves to another Session, of a Subagent that it already has. -/
def materializes (parent : StoredThreadRecordV1) (previous : Option StoredThreadRecordV1)
    (records : OrderedMap HostThreadId StoredThreadRecordV1) (child : StoredThreadRecordV1) : Bool :=
  child.hostThreadId ≠ parent.hostThreadId && child.subagent.isSome &&
    (records.get? child.hostThreadId).all (·.subagent = child.subagent) &&
    (previous.isSome || child.subagent.any (·.parentHostThreadId = parent.hostThreadId))

def materialize (parent : StoredThreadRecordV1) (previous : Option StoredThreadRecordV1)
    (children : List StoredThreadRecordV1) (records : OrderedMap HostThreadId StoredThreadRecordV1) :
    OrderedMap HostThreadId StoredThreadRecordV1 :=
  children.foldl (fun records child =>
    if materializes parent previous records child then records.set child.hostThreadId child
    else records) records

def projectExternalSnapshot (projection : Projection) (record : StoredThreadRecordV1)
    (snapshot : HostThreadSnapshot) (previous : Option StoredThreadRecordV1) :
    HostCommand (List ProjectedTurn) := do
  modify fun host =>
    { host with records := materialize record previous projection.subagents host.records }
  if projection.rejects || record.turnMappings.length < snapshot.turns.length then throw ()
  else
    return List.zipWith (fun mapping turn => ⟨mapping.hostTurnId, turn⟩) record.turnMappings
      snapshot.turns

/-- A presentation hint, never a title. -/
def updatePreview (around : Surroundings) (rejects : Bool) (record : StoredThreadRecordV1)
    (turns : List ProjectedTurn) (clearMissing : Bool) : HostCommand StoredThreadRecordV1 :=
  let preview := around.firstUserMessagePreview turns
  if preview = record.preview || (preview.isNone && !clearMissing) then return record
  else update rejects around.now record.hostThreadId (fun current =>
    .ok (if current.preview = preview then none else some { current with preview := preview })) true

/-- What the steps of a commit meet. -/
structure CommitAnswers where
  replace : Bool
  projection : Projection
  updatePreview : Bool

def projectSnapshot (around : Surroundings) (answers : CommitAnswers) (record : StoredThreadRecordV1)
    (snapshot : HostThreadSnapshot) (previous : Option StoredThreadRecordV1) :
    HostCommand (StoredThreadRecordV1 × List ProjectedTurn) := do
  let turns ← projectExternalSnapshot answers.projection record snapshot previous
  let record ← updatePreview around answers.updatePreview record turns previous.isSome
  return (record, turns)

/-- The identity of a Turn is that of the Session of its Thread. -/
def belongs (harnessId : HarnessId) (nativeSessionId : String) (turn : HostTurnSnapshot) : Bool :=
  turn.nativeTurnRef.harnessId = harnessId && turn.nativeTurnRef.nativeSessionId = nativeSessionId &&
    turn.checkpoint.all fun checkpoint =>
      checkpoint.harnessId = harnessId && checkpoint.nativeSessionId = nativeSessionId

def commitDerivedSnapshot (around : Surroundings) (answers : CommitAnswers)
    (newTurnId : Nat → HostTurnId) (record : StoredThreadRecordV1)
    (nativeSessionRef : NativeSessionRef) (snapshot : HostThreadSnapshot) :
    HostCommand (StoredThreadRecordV1 × List ProjectedTurn) :=
  if record.state ≠ .creating ∨ record.turnMappings ≠ [] then throw ()
  else if !snapshot.turns.all (belongs record.harnessId nativeSessionRef.nativeSessionId) then
    throw ()
  else do
  let mappings := snapshot.turns.mapIdx fun index turn =>
    ⟨newTurnId index, turn.nativeTurnRef, turn.checkpoint⟩
  let nextRecord ← update answers.replace around.now record.hostThreadId
    (commitReady ⟨record.hostThreadId, nativeSessionRef, some mappings⟩ .constructed) false
  projectSnapshot around answers nextRecord snapshot none

/-- The Turns of a shorter history under the Host ids that they had. -/
def retainedMappings (previous : StoredThreadRecordV1) (snapshot : HostThreadSnapshot) :
    List StoredTurnMappingV1 :=
  List.zipWith (fun mapping turn => ⟨mapping.hostTurnId, turn.nativeTurnRef, turn.checkpoint⟩)
    previous.turnMappings snapshot.turns

/-- The checks of `commitForkRollback`, and what it replaces the record with. -/
def forkRollbackInput (derived source : StoredThreadRecordV1) (nativeSessionRef : NativeSessionRef)
    (snapshot : HostThreadSnapshot) : Option ReplaceReadySessionInput :=
  match derived.nativeSessionRef, source.nativeSessionRef, derived.forkSource with
  | some derivedRef, some sourceRef, some forkSource =>
    if derived.state ≠ .ready ∨ source.state ≠ .ready ∨
        forkSource.hostThreadId ≠ source.hostThreadId ∨ derived.harnessId ≠ source.harnessId then none
    else
      let retainedCount := snapshot.turns.length
      match source.turnMappings.findIdx? (·.hostTurnId = forkSource.hostTurnId) with
      | none => none
      | some sourceBoundaryIndex =>
        if derived.turnMappings.length ≠ sourceBoundaryIndex + 1 ∨ retainedCount < 1 ∨
            retainedCount ≥ derived.turnMappings.length then none
        else
          match source.turnMappings[retainedCount - 1]? with
          | none => none
          | some selectedSource =>
            if selectedSource.nativeCheckpointRef.isNone then none
            else if nativeSessionRef.harnessId ≠ derived.harnessId ∨
                nativeSessionRef.nativeSessionId = derivedRef.nativeSessionId ∨
                nativeSessionRef.nativeSessionId = sourceRef.nativeSessionId then none
            else if !snapshot.turns.all (belongs derived.harnessId nativeSessionRef.nativeSessionId) then none
            else
              some ⟨derived.hostThreadId, derived.revision, derivedRef, nativeSessionRef,
                retainedMappings derived snapshot, ⟨source.hostThreadId, selectedSource.hostTurnId⟩⟩
  | _, _, _ => none

def commitForkRollback (around : Surroundings) (answers : CommitAnswers)
    (derived source : StoredThreadRecordV1) (nativeSessionRef : NativeSessionRef)
    (snapshot : HostThreadSnapshot) : HostCommand (StoredThreadRecordV1 × List ProjectedTurn) :=
  match forkRollbackInput derived source nativeSessionRef snapshot with
  | none => throw ()
  | some input => do
    let nextRecord ← update answers.replace around.now derived.hostThreadId
      (replaceReadySession input .constructed) false
    projectSnapshot around answers nextRecord snapshot (some derived)

/-- The checks of `commitLastTurnRollback`, and what it replaces the record with. -/
def lastTurnRollbackInput (current : StoredThreadRecordV1) (nativeSessionRef : NativeSessionRef)
    (snapshot : HostThreadSnapshot) : Option ReplaceReadySessionAfterLastTurnInput :=
  match current.nativeSessionRef with
  | none => none
  | some currentRef =>
    if current.state ≠ .ready ∨ nativeSessionRef.harnessId ≠ current.harnessId ∨
        snapshot.turns.length + 1 ≠ current.turnMappings.length then none
    else if !snapshot.turns.all (belongs current.harnessId nativeSessionRef.nativeSessionId) then none
    else
      some ⟨current.hostThreadId, current.revision, currentRef, nativeSessionRef,
        retainedMappings current snapshot⟩

def commitLastTurnRollback (around : Surroundings) (answers : CommitAnswers)
    (current : StoredThreadRecordV1) (nativeSessionRef : NativeSessionRef)
    (snapshot : HostThreadSnapshot) : HostCommand (StoredThreadRecordV1 × List ProjectedTurn) :=
  match lastTurnRollbackInput current nativeSessionRef snapshot with
  | none => throw ()
  | some input => do
    let nextRecord ← update answers.replace around.now current.hostThreadId
      (replaceReadySessionAfterLastTurn input .constructed) false
    projectSnapshot around answers nextRecord snapshot (some current)

/-- The mapping of a Turn of the snapshot: the stored one of the same native Turn, or a new one. -/
def alignTurn (record : StoredThreadRecordV1) (newTurnId : Nat → HostTurnId) (index : Nat)
    (turn : HostTurnSnapshot) : StoredTurnMappingV1 :=
  match record.turnMappings.reverse.find? (·.nativeTurnRef = turn.nativeTurnRef) with
  | some existing => ⟨existing.hostTurnId, turn.nativeTurnRef, turn.checkpoint⟩
  | none => ⟨newTurnId index, turn.nativeTurnRef, turn.checkpoint⟩

def alignSnapshot (around : Surroundings) (answers : CommitAnswers) (newTurnId : Nat → HostTurnId)
    (record : StoredThreadRecordV1) (snapshot : HostThreadSnapshot) :
    HostCommand (StoredThreadRecordV1 × List ProjectedTurn) :=
  match record.nativeSessionRef with
  | none =>
    if record.state = .creating && snapshot.turns.isEmpty then return (record, []) else throw ()
  | some nativeSessionRef =>
    if record.state ≠ .ready then throw ()
    else if !snapshot.turns.all (belongs record.harnessId nativeSessionRef.nativeSessionId) then
      throw ()
    else do
    let orderedMappings := snapshot.turns.mapIdx (alignTurn record newTurnId)
    let nextRecord ←
      if orderedMappings ≠ record.turnMappings then
        update answers.replace around.now record.hostThreadId
          (reconcileTurnMappings orderedMappings .constructed) false
      else pure record
    projectSnapshot around answers nextRecord snapshot none

/-- `session.close()`, after which the Session is closed unless the close rejects. -/
def close (rejects : Bool) (session : HarnessSession) : HostCommand Unit :=
  if rejects then throw ()
  else modify fun host => { host with sessions := host.sessions.erase session.handle }

/-- `.catch(() => undefined)` -/
def bestEffort (command : HostCommand Unit) : HostCommand Unit :=
  try command catch _ => pure ()

/-- `adapter.open`; a Session is open when it is answered. -/
def openSession (answer : Answer (HarnessSessionCapabilities × HarnessSessionState)) :
    HostCommand (Except HarnessErrorCode HarnessSession) := do
  match answer with
  | .rejects => throw ()
  | .error error => return .error error
  | .ok (capabilities, initialState) =>
    let host ← get
    set { host with
      sessions := host.nextHandle :: host.sessions, nextHandle := host.nextHandle + 1 }
    return .ok ⟨host.nextHandle, capabilities, initialState⟩

/-- A call of a Session that answers a value or an error. -/
def ask {α : Type} (answer : Answer α) : HostCommand (Except HarnessErrorCode α) :=
  match answer with
  | .ok value => return .ok value
  | .error error => return .error error
  | .rejects => throw ()

def Host.without (host : Host) (hostThreadId : HostThreadId) : Host :=
  { host with
    threads := host.threads.delete hostThreadId
    steeredTurnIds := host.steeredTurnIds.delete hostThreadId }

def remove (hostThreadId : HostThreadId) : HostCommand Unit := modify (·.without hostThreadId)

def register (around : Surroundings) (record : StoredThreadRecordV1) (session : HarnessSession)
    (sessionId : String) (thread : ThreadValue) (turns : List ProjectedTurn)
    (restoredState : Option HarnessSessionState) (requestedPermissionModeId : Option String) :
    HostCommand ExternalThread :=
  if !around.hasAdapter record.harnessId then throw ()
  else do
  let initialState := restoredState.getD session.initialState
  let effectivePermissionModeId := requestedPermissionModeId <|> initialState.effectivePermissionModeId
  let running := around.subagentRunning record.hostThreadId
  let host ← get
  let steeredTurnIds := (host.steeredTurnIds.get? record.hostThreadId).getD []
  let externalThread : ExternalThread :=
    { session, record, sessionId
      state := { initialState with effectivePermissionModeId := effectivePermissionModeId }
      requestedModel := initialState.effectiveModel
      requestedThinkingOptionId := initialState.effectiveThinkingOptionId
      requestedPermissionModeId := effectivePermissionModeId
      transportModelId := record.transportModelId
      thread := if running then { thread with running := true } else thread
      turns, running, steeredTurnIds }
  set { host with
    threads := host.threads.set record.hostThreadId externalThread
    steeredTurnIds := host.steeredTurnIds.set record.hostThreadId steeredTurnIds }
  return externalThread

/-- What the replacement of a Session meets: whether the close of the old one rejects, the Subagent
Threads below the Thread with whether their close rejects, and whether finding them rejects. -/
structure ReplaceAnswers where
  close : Bool
  descendants : List (HostThreadId × Bool)
  retireSubagents : Bool

/-- A loaded Subagent Thread is removed and its Session closed. -/
def Host.retire (parentId : HostThreadId) (host : Host) (descendant : HostThreadId × Bool) : Host :=
  match host.threads.get? descendant.1 with
  | none => host
  | some child =>
    if child.record.subagent.isSome && descendant.1 ≠ parentId then
      let removed := host.without descendant.1
      if descendant.2 then removed
      else { removed with sessions := host.sessions.erase child.session.handle }
    else host

def replace (around : Surroundings) (answers : ReplaceAnswers) (current : ExternalThread)
    (record : StoredThreadRecordV1) (session : HarnessSession) (thread : ThreadValue)
    (turns : List ProjectedTurn) (restoredState : Option HarnessSessionState) :
    HostCommand ExternalThread := do
  let host ← get
  if current.running ∨ host.threads.get? current.id ≠ some current ∨
      record.hostThreadId ≠ current.id then throw ()
  else
    bestEffort (close answers.close current.session)
    modify fun host => answers.descendants.foldl (Host.retire current.id) host
    if answers.retireSubagents then throw ()
    else
      modify fun host => { host with threads := host.threads.delete current.id }
      register around record session current.sessionId thread turns restoredState none

/-- What the refresh of a loaded Thread meets: a failed idle release, what the recovery of an
unavailable idle Session ends with, and the answers to the steps after it. -/
structure RefreshAnswers where
  failure : Option String
  recovery : Option (Except ExternalThreadRpcError ExternalThread)
  readSnapshot : Answer HostThreadSnapshot
  recoveryAfterRead : Option (Except ExternalThreadRpcError ExternalThread)
  readAgain : Answer HostThreadSnapshot
  newTurnId : Nat → HostTurnId
  align : CommitAnswers

/-- A recovered Thread in place of the one that it is. Only an idle Thread is recovered. -/
def recover (thread recovered : ExternalThread) : HostCommand ExternalThread := do
  if recovered.id = thread.id then
    let recovered := { recovered with running := thread.running }
    modify fun host =>
      { host with
        records := host.records.set thread.id recovered.record
        threads := host.threads.set thread.id recovered }
    return recovered
  else return thread

/-- The Thread with the history that its Session was aligned with. An empty snapshot cannot reconcile
the Turns of a Thread without native identity. -/
def withHistory (thread : ExternalThread) (snapshot : HostThreadSnapshot)
    (aligned : StoredThreadRecordV1 × List ProjectedTurn) : ExternalThread :=
  let turns := if aligned.1.state = .creating && aligned.1.nativeSessionRef.isNone &&
      snapshot.turns.isEmpty then thread.turns else aligned.2
  { thread with
    record := aligned.1, turns := turns
    thread := ⟨aligned.1, turns, thread.sessionId, thread.running⟩ }

def adoptSnapshot (around : Surroundings) (answers : RefreshAnswers) (thread : ExternalThread)
    (snapshot : HostThreadSnapshot) : HostCommand (Except ExternalThreadRpcError ExternalThread) := do
  try
    let aligned ← alignSnapshot around answers.align answers.newTurnId thread.record snapshot
    let refreshed := withHistory thread snapshot aligned
    modify fun host => { host with threads := host.threads.set thread.id refreshed }
    pure (.ok refreshed)
  catch _ => pure (.error ⟨-32081, "External Thread history could not be persisted"⟩)

/-- The read of the history; a Session that answers `invalidState` may be recovered and read again. -/
def readHistory (around : Surroundings) (answers : RefreshAnswers) (thread : ExternalThread) :
    HostCommand (Except ExternalThreadRpcError ExternalThread) := do
  match ← ask answers.readSnapshot with
  | .ok snapshot => adoptSnapshot around answers thread snapshot
  | .error error =>
    match answers.recoveryAfterRead with
    | none => return .error (mapExternalThreadHarnessError error .read)
    | some recovery =>
      if error ≠ .invalidState then return .error (mapExternalThreadHarnessError error .read)
      else
        match recovery with
        | .error error => return .error error
        | .ok recovered =>
          let thread ← recover thread recovered
          match ← ask answers.readAgain with
          | .ok snapshot => adoptSnapshot around answers thread snapshot
          | .error error => return .error (mapExternalThreadHarnessError error .read)

/-- `#refresh`, and the Thread as it is afterwards. -/
def refreshLoaded (around : Surroundings) (answers : RefreshAnswers) (thread : ExternalThread) :
    HostCommand (Except ExternalThreadRpcError ExternalThread) := do
  let host ← get
  if host.threads.get? thread.id ≠ some thread then
    return .error ⟨-32076, "External Session changed during recovery; retry the request"⟩
  else
    match answers.failure, answers.recovery with
    | some failure, _ => return .error ⟨-32075, failure⟩
    | none, some (.error error) => return .error error
    | none, some (.ok recovered) =>
      let thread ← recover thread recovered
      readHistory around answers thread
    | none, none => readHistory around answers thread

def refresh (around : Surroundings) (answers : RefreshAnswers) (thread : ExternalThread) :
    HostCommand (Except ExternalThreadRpcError ExternalThread) := do
  try refreshLoaded around answers thread
  catch _ => pure (.error ⟨-32076, "External Thread recovery failed; retry the request"⟩)

end CodexHost.Source.HostRuntime.ExternalThreads
