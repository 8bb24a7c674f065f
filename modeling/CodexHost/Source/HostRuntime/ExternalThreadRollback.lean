import CodexHost.Source.HostRuntime.ExternalThreads

/-!
# Rolling an external Thread back

`packages/host-runtime/src/external-thread-rollback.ts`.
-/
namespace CodexHost.Source.HostRuntime.ExternalThreads
open Foundation Source.SharedContracts Source.MappingStore

/-- What resolving the source of a fork ends with when the source is not loaded. -/
inductive Resolution where
  | error (error : ExternalThreadRpcError)
  | official
  | restored (thread : ExternalThread)

/-- What each step of a rollback meets; a flag says that the step rejects. -/
structure RollbackAnswers where
  refresh : RefreshAnswers
  resolution : Resolution
  refreshSource : RefreshAnswers
  opened : Answer (HarnessSessionCapabilities × HarnessSessionState)
  modelSelect : Answer Unit
  thinkingSelect : Answer Unit
  permissionModeSelect : Answer Unit
  readSnapshot : Answer HostThreadSnapshot
  close : Bool
  commit : CommitAnswers
  replace : ReplaceAnswers

def currentConfiguration (current : ExternalThread) : HarnessSessionState :=
  { current.state with
    effectiveModel := current.state.effectiveModel <|> current.requestedModel
    effectiveThinkingOptionId :=
      current.state.effectiveThinkingOptionId <|> current.requestedThinkingOptionId
    effectivePermissionModeId :=
      current.state.effectivePermissionModeId <|> current.requestedPermissionModeId }

def sameCurrentConfiguration (current replacement : HarnessSessionState) : Bool :=
  current.effectiveModel = replacement.effectiveModel &&
    current.effectiveThinkingOptionId = replacement.effectiveThinkingOptionId &&
    current.effectivePermissionModeId = replacement.effectivePermissionModeId

/-- A part of the configuration that is set, unless the Session cannot select it. -/
def restorePart (isSet selects : Bool) (message : String) (answer : Answer Unit) :
    HostCommand (Option ExternalThreadRpcError) :=
  if !isSet then return none
  else if !selects then return some ⟨-32076, message⟩
  else do
    match ← ask answer with
    | .ok _ => return none
    | .error error => return some (mapExternalThreadHarnessError error .fork)

def restoreCurrentConfiguration (answers : RollbackAnswers) (session : HarnessSession)
    (configuration : HarnessSessionState) : HostCommand (Option ExternalThreadRpcError) := do
  match ← restorePart configuration.effectiveModel.isSome session.capabilities.selectModel
      "External rollback cannot restore the current Model" answers.modelSelect with
  | some error => return some error
  | none =>
    match ← restorePart configuration.effectiveThinkingOptionId.isSome
        session.capabilities.selectThinkingOption
        "External rollback cannot restore current Thinking" answers.thinkingSelect with
    | some error => return some error
    | none =>
      restorePart (configuration.effectivePermissionModeId.isSome &&
          !session.capabilities.permissionModeFixedAtCreate)
        session.capabilities.selectPermissionMode
        "External rollback cannot restore the current Permission Mode" answers.permissionModeSelect

/-- The exits that close the Session and answer an error. -/
def abandon (answers : RollbackAnswers) (session : HarnessSession) (error : ExternalThreadRpcError) :
    HostCommand (Except ExternalThreadRpcError ThreadValue) := do
  bestEffort (close answers.close session)
  return .error error

/-- A commit whose rejection closes the Session, and then the runtime Session. -/
def commitReplacement (around : Surroundings) (answers : RollbackAnswers) (current : ExternalThread)
    (session : HarnessSession) (restoredState : Option HarnessSessionState)
    (commit : HostCommand (StoredThreadRecordV1 × List ProjectedTurn)) :
    HostCommand (Except ExternalThreadRpcError ThreadValue) := do
  let aligned ← try
      let aligned ← commit
      pure (some aligned)
    catch _ => pure none
  match aligned with
  | none => abandon answers session ⟨-32081, "External rollback could not be persisted"⟩
  | some (record, turns) =>
    let thread : ThreadValue := ⟨record, turns, current.sessionId, false⟩
    let _ ← replace around answers.replace current record session thread turns restoredState
    return .ok thread

/-- `adapter.open`, whose rejection is an error with this message. -/
def openFor (answers : RollbackAnswers) (message : String)
    (prepare : HarnessSession → HostCommand (Except ExternalThreadRpcError ThreadValue)) :
    HostCommand (Except ExternalThreadRpcError ThreadValue) := do
  let opened ← try
      let opened ← openSession answers.opened
      pure (some opened)
    catch _ => pure none
  match opened with
  | none => return .error ⟨-32076, message⟩
  | some (.error error) => return .error (mapExternalThreadHarnessError error .fork)
  | some (.ok session) => prepare session

/-- The Session of the last-Turn route after it was opened. -/
def prepareLastTurn (around : Surroundings) (answers : RollbackAnswers) (current : ExternalThread)
    (session : HarnessSession) : HostCommand (Except ExternalThreadRpcError ThreadValue) := do
  let configuration := currentConfiguration current
  match session.initialState.nativeRef.filter (·.harnessId = current.harnessId) with
  | none =>
    abandon answers session ⟨-32076, "External rollback did not return a valid Session"⟩
  | some finalNativeRef =>
    match ← restoreCurrentConfiguration answers session configuration with
    | some error => abandon answers session error
    | none =>
      match ← ask answers.readSnapshot with
      | .error error => abandon answers session (mapExternalThreadHarnessError error .read)
      | .ok snapshot =>
        if snapshot.turns.length + 1 ≠ current.record.turnMappings.length then
          abandon answers session ⟨-32080, "External rollback did not remove exactly one Turn"⟩
        else
          let replacementState := snapshot.state.getD session.initialState
          if !sameCurrentConfiguration configuration replacementState then
            abandon answers session ⟨-32080, "External rollback changed configuration"⟩
          else
            commitReplacement around answers current session (some replacementState)
              (commitLastTurnRollback around answers.commit current.record finalNativeRef snapshot)

def executeCurrentLastTurnRollback (around : Surroundings) (answers : RollbackAnswers)
    (current : ExternalThread) : HostCommand (Except ExternalThreadRpcError ThreadValue) :=
  if current.record.turnMappings = [] then
    return .error ⟨-32076, "External Thread has no Turn to roll back"⟩
  else if current.record.nativeSessionRef.isNone || !around.hasAdapter current.harnessId then
    return .error ⟨-32079, "External Native Session is unavailable"⟩
  else
    openFor answers "External Thread rollback failed" (prepareLastTurn around answers current)

/-- What a rollback through the fork source comes to. -/
inductive ForkPlan where
  | done
  | fork (retainedCount : Nat) (sourceNativeRef : NativeSessionRef)

/-- An active Turn of the source is not in its derived Thread, and is the first to be undone. -/
def retainedCount (derived source : ExternalThread) (numTurns : Nat) : Int :=
  let derivedCount := derived.record.turnMappings.length
  let excludedActiveTurnCount : Int :=
    if source.running || source.record.turnMappings.length > derivedCount then 1 else 0
  derivedCount - numTurns + excludedActiveTurnCount

def forkPlan (around : Surroundings) (derived source : ExternalThread) (forkSource : ForkSource)
    (numTurns : Nat) : Except ExternalThreadRpcError ForkPlan :=
  let derivedCount := derived.record.turnMappings.length
  let untouched := (source.record.turnMappings.findIdx? (·.hostTurnId = forkSource.hostTurnId)).any
    (derivedCount = · + 1)
  if !untouched then
    .error ⟨-32076, "External rollback requires an untouched Fork-derived Thread"⟩
  else
    let retainedCount := retainedCount derived source numTurns
    if retainedCount = derivedCount then .ok .done
    else if retainedCount < 1 || !(source.record.turnMappings[(retainedCount - 1).toNat]?.any
        (·.nativeCheckpointRef.isSome)) then
      .error ⟨-32080, "External Fork Checkpoint is unavailable"⟩
    else
      match source.record.nativeSessionRef with
      | none => .error ⟨-32079, "External Native Session is unavailable"⟩
      | some sourceNativeRef =>
        if around.hasAdapter source.harnessId then .ok (.fork retainedCount.toNat sourceNativeRef)
        else .error ⟨-32079, "External Native Session is unavailable"⟩

/-- The Session of the fork route after it was opened. -/
def prepareFork (around : Surroundings) (answers : RollbackAnswers) (derived source : ExternalThread)
    (retainedCount : Nat) (sourceNativeRef : NativeSessionRef) (session : HarnessSession) :
    HostCommand (Except ExternalThreadRpcError ThreadValue) := do
  match session.initialState.nativeRef.filter fun ref =>
      ref.nativeSessionId ≠ sourceNativeRef.nativeSessionId &&
        derived.record.nativeSessionRef.all (·.nativeSessionId ≠ ref.nativeSessionId) with
  | none =>
    abandon answers session ⟨-32076, "External rollback did not create a distinct Session"⟩
  | some finalNativeRef =>
    match ← ask answers.readSnapshot with
    | .error error => abandon answers session (mapExternalThreadHarnessError error .read)
    | .ok snapshot =>
      if snapshot.turns.length ≠ retainedCount then
        abandon answers session ⟨-32080, "External Fork result does not match the rollback boundary"⟩
      else
        commitReplacement around answers derived session none
          (commitForkRollback around answers.commit derived.record source.record finalNativeRef snapshot)

/-- `runtime.resolve` of a Thread that need not be loaded. -/
def resolve (answer : Resolution) (hostThreadId : HostThreadId) : HostCommand Resolution := do
  let host ← get
  match host.threads.get? hostThreadId, answer with
  | some thread, _ => return .restored thread
  | none, .restored thread =>
    if thread.id = hostThreadId then
      let restored := { thread with session := { thread.session with handle := host.nextHandle } }
      set { host with
        threads := host.threads.set hostThreadId restored
        sessions := host.nextHandle :: host.sessions, nextHandle := host.nextHandle + 1 }
      return .restored restored
    else return .official
  | none, answer => return answer

/-- Whether the source of the fork can serve a rollback. -/
def supportsLineage (derived source : ExternalThread) : Bool :=
  source.id ≠ derived.id && source.harnessId = derived.harnessId && source.session.capabilities.fork &&
    (source.cwd = derived.cwd || source.session.capabilities.forkAcrossCwd)

/-- The source of the fork, resolved, checked and refreshed. -/
def rollbackSource (around : Surroundings) (answers : RollbackAnswers) (derived : ExternalThread)
    (forkSource : ForkSource) : HostCommand (Except ExternalThreadRpcError ExternalThread) := do
  match ← resolve answers.resolution forkSource.hostThreadId with
  | .error error => return .error error
  | .official => return .error ⟨-32080, "External Fork source is unavailable"⟩
  | .restored source =>
    if !supportsLineage derived source then
      return .error ⟨-32076, "External rollback source lineage is unsupported"⟩
    else if source.running then return .ok source
    else refresh around answers.refreshSource source

/-- The checks before the Thread is refreshed. -/
def rollbackRefusal (derived : ExternalThread) (numTurns : Nat) : Option ExternalThreadRpcError :=
  let undone := derived.record.turnMappings.drop (derived.record.turnMappings.length - numTurns)
  if derived.running then some ⟨-32072, "External Thread has an active Turn"⟩
  else if undone.any fun mapping => derived.steeredTurnIds.contains mapping.hostTurnId then
    some ⟨-32080, "A Turn here took steered input; reopen the Thread before undoing Turns"⟩
  else none

/-- The route of a rollback. -/
inductive RollbackRoute where
  | lastTurn (current : ExternalThread)
  | fork (derived source : ExternalThread) (forkSource : ForkSource)

/-- The Thread refreshed and, on the fork route, its source resolved and refreshed. -/
def rollbackRoute (around : Surroundings) (answers : RollbackAnswers) (derived : ExternalThread)
    (numTurns : Nat) (expectedLastTurnId : Option HostTurnId) :
    HostCommand (Except ExternalThreadRpcError RollbackRoute) := do
  match rollbackRefusal derived numTurns with
  | some error => return .error error
  | none =>
    match ← refresh around answers.refresh derived with
    | .error error => return .error error
    | .ok derived =>
      if expectedLastTurnId.any fun expected =>
          derived.record.turnMappings.getLast?.map (·.hostTurnId) ≠ some expected then
        return .error ⟨-32080, "External Revert boundary is unavailable"⟩
      else if numTurns = 1 && derived.session.capabilities.rollbackLastTurn then
        return .ok (.lastTurn derived)
      else
        match derived.record.forkSource with
        | none =>
          return .error ⟨-32076, "External rollback requires an untouched Fork-derived Thread"⟩
        | some forkSource =>
          match ← rollbackSource around answers derived forkSource with
          | .error error => return .error error
          | .ok source => return .ok (.fork derived source forkSource)

/-- The rollback on its route. -/
def rollbackOn (around : Surroundings) (answers : RollbackAnswers) (numTurns : Nat) :
    RollbackRoute → HostCommand (Except ExternalThreadRpcError ThreadValue)
  | .lastTurn current => executeCurrentLastTurnRollback around answers current
  | .fork derived source forkSource =>
    match forkPlan around derived source forkSource numTurns with
    | .error error => return .error error
    | .ok .done => return .ok derived.thread
    | .ok (.fork retainedCount sourceNativeRef) =>
      openFor answers "External Thread fork failed"
        (prepareFork around answers derived source retainedCount sourceNativeRef)

def executeExternalThreadRollback (around : Surroundings) (answers : RollbackAnswers)
    (derived : ExternalThread) (numTurns : Nat) (expectedLastTurnId : Option HostTurnId) :
    HostCommand (Except ExternalThreadRpcError ThreadValue) := do
  match ← rollbackRoute around answers derived numTurns expectedLastTurnId with
  | .error error => return .error error
  | .ok route => rollbackOn around answers numTurns route

end CodexHost.Source.HostRuntime.ExternalThreads
