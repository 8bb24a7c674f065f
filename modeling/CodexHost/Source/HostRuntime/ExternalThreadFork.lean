import CodexHost.Source.HostRuntime.ExternalThreads

/-!
# Forking an external Thread

`packages/host-runtime/src/external-thread-fork.ts`.
-/
namespace CodexHost.Source.HostRuntime.ExternalThreads
open Foundation Source.SharedContracts Source.MappingStore

structure DecodedThreadForkRequest where
  lastTurnId : Option HostTurnId
  beforeTurnId : Option HostTurnId
  path : Option String
  model : Option String
  modelProvider : Option String
  cwd : Option String
  excludeTurns : Bool
  ephemeral : Option Bool
  runtimeWorkspaceRoots : Option (List String)
  deriving DecidableEq, Repr

structure Forked where
  derived : ExternalThread
  thread : ThreadValue
  responseThread : ThreadValue

/-- What each step of a fork meets; a flag says that the step rejects. -/
structure ForkAnswers where
  refresh : RefreshAnswers
  hostThreadId : HostThreadId
  createRequestId : String
  newTurnId : Nat → HostTurnId
  createProvisional : Bool
  opened : Answer (HarnessSessionCapabilities × HarnessSessionState)
  modelSelect : Answer Unit
  permissionModeSelect : Answer Unit
  readSnapshot : Answer HostThreadSnapshot
  setTransportModelId : Bool
  commit : CommitAnswers
  close : Bool
  removeProvisional : Bool

/-- The checks before the source is refreshed. -/
def forkRefusal (around : Surroundings) (source : ExternalThread) (fork : DecodedThreadForkRequest) :
    Option ExternalThreadRpcError :=
  let targetCwd := fork.cwd.getD source.cwd
  let changesCwd : Bool := targetCwd ≠ source.cwd
  if fork.path.isSome || fork.model.any (· ≠ source.transportModelId) ||
      fork.modelProvider.any (· ≠ "codexhost") then
    some ⟨-32602, "External Fork cannot override source ownership"⟩
  else if changesCwd && (!around.isAbsolute targetCwd ||
      fork.runtimeWorkspaceRoots.any fun roots =>
        roots.any (!around.isAbsolute ·) || !roots.contains targetCwd) then
    some ⟨-32602, "External Fork target cwd is invalid"⟩
  else if !source.session.capabilities.fork then
    some ⟨-32076, "External Harness does not support fork"⟩
  else if changesCwd && !source.session.capabilities.forkAcrossCwd then
    some ⟨-32076, "External Harness cannot fork into another cwd"⟩
  else none

/-- `mappings[boundaryIndex]` -/
def forkBoundary (fork : DecodedThreadForkRequest) (mappings : List StoredTurnMappingV1) :
    Option StoredTurnMappingV1 :=
  match fork.lastTurnId with
  | some lastTurnId => mappings.find? (·.hostTurnId = lastTurnId)
  | none =>
    match fork.beforeTurnId with
    | some beforeTurnId =>
      match mappings.findIdx? (·.hostTurnId = beforeTurnId) with
      | none => none
      | some beforeIndex => if beforeIndex = 0 then none else mappings[beforeIndex - 1]?
    | none => mappings.getLast?

/-- What a fork starts from: the boundary and the native Session of the source. -/
def forkOrigin (around : Surroundings) (source : ExternalThread) (fork : DecodedThreadForkRequest) :
    Except ExternalThreadRpcError (StoredTurnMappingV1 × NativeSessionRef) :=
  match forkBoundary fork source.record.turnMappings with
  | none => .error ⟨-32080, "External Fork Checkpoint is unavailable"⟩
  | some boundary =>
    if source.steeredTurnIds.contains boundary.hostTurnId then
      .error ⟨-32080, "This Turn took steered input; reopen the Thread before forking from it"⟩
    else if boundary.nativeCheckpointRef.isNone then
      .error ⟨-32080, "External Fork Checkpoint is unavailable"⟩
    else
      match source.record.nativeSessionRef with
      | none => .error ⟨-32079, "External Native Session is unavailable"⟩
      | some nativeSessionRef =>
        if around.hasAdapter source.harnessId then .ok (boundary, nativeSessionRef)
        else .error ⟨-32079, "External Native Session is unavailable"⟩

/-- `createExternalThreadRecordInput` of a fork. -/
def forkRecordInput (answers : ForkAnswers) (source : ExternalThread)
    (fork : DecodedThreadForkRequest) (boundary : StoredTurnMappingV1) :
    CreateProvisionalThreadInput where
  hostThreadId := answers.hostThreadId
  createRequestId := answers.createRequestId
  harnessId := source.record.harnessId
  importSourceRef := none
  cwd := fork.cwd.getD source.cwd
  title := none
  transportModelId := source.transportModelId
  ephemeral := fork.ephemeral.getD source.record.ephemeral
  historyMode := source.record.historyMode
  projectlessWorkspace := none
  forkSource := some ⟨source.id, boundary.hostTurnId⟩
  subagent := none

/-- The Model of the source: the one in effect, the requested one, or the persisted one. -/
def sourceModel (around : Surroundings) (source : ExternalThread) : Option String :=
  let persisted := match around.decodeExternalTransportSelection source.harnessId source.transportModelId with
    | .ok selection => selection.bind (·.model)
    | .error _ => none
  source.state.effectiveModel <|> source.requestedModel <|> persisted

/-- Failure is non-fatal: the derived Session then keeps the Model it opened with. -/
def inheritSourceModel (around : Surroundings) (answers : ForkAnswers) (source : ExternalThread)
    (session : HarnessSession) : HostCommand Unit :=
  if (sourceModel around source).isNone || !session.capabilities.selectModel ||
      session.initialState.effectiveModel.isSome then
    pure ()
  else bestEffort (discard (ask answers.modelSelect))

/-- The Permission Mode that the derived Session was given. -/
def inheritSourcePermissionMode (answers : ForkAnswers) (source : ExternalThread)
    (session : HarnessSession) : HostCommand (Option String) := do
  match source.state.effectivePermissionModeId <|> source.requestedPermissionModeId with
  | none => return none
  | some sourceModeId =>
    if !session.capabilities.selectPermissionMode ||
        session.capabilities.permissionModeFixedAtCreate then
      return none
    else
      try
        let selected ← ask answers.permissionModeSelect
        pure (if selected.toBool then some sourceModeId else none)
      catch _ => pure none

/-- The derived Session's actual Model is persisted, not a source-only runtime selection. -/
def persistEffectiveModel (around : Surroundings) (answers : ForkAnswers) (source : ExternalThread)
    (provisional : StoredThreadRecordV1) (snapshot : HostThreadSnapshot) :
    HostCommand StoredThreadRecordV1 := do
  match snapshot.state.bind (·.effectiveModel),
      around.decodeExternalTransportSelection source.harnessId provisional.transportModelId with
  | _, .error _ => throw ()
  | some model, .ok (some selection) =>
    if selection.model = some model then return provisional
    else
      match around.encodeExternalTransportSelection source.harnessId
          ({ selection with model := some model }) with
      | .error _ => throw ()
      | .ok transportModelId =>
        update answers.setTransportModelId around.now provisional.hostThreadId
          (setTransportModelId transportModelId .constructed) false
  | _, .ok _ => return provisional

/-- The `try` block over the open Session. -/
def deriveThread (around : Surroundings) (answers : ForkAnswers) (source : ExternalThread)
    (fork : DecodedThreadForkRequest) (nativeSessionRef : NativeSessionRef)
    (provisional : StoredThreadRecordV1) (session : HarnessSession)
    (inheritedPermissionModeId : Option String) :
    HostCommand (Except ExternalThreadRpcError Forked) := do
  match session.initialState.nativeRef with
  | none => throw ()
  | some derivedNativeRef =>
    if derivedNativeRef.nativeSessionId = nativeSessionRef.nativeSessionId then throw ()
    else match ← ask answers.readSnapshot with
    | .error error =>
      bestEffort (close answers.close session)
      bestEffort (removeProvisional answers.removeProvisional provisional.hostThreadId)
      return .error (mapExternalThreadHarnessError error .read)
    | .ok snapshot =>
      let provisional ← persistEffectiveModel around answers source provisional snapshot
      let (record, turns) ← commitDerivedSnapshot around answers.commit answers.newTurnId provisional
        derivedNativeRef snapshot
      let thread : ThreadValue := ⟨record, turns, source.sessionId, false⟩
      let derived ← register around record session source.sessionId thread turns snapshot.state
        inheritedPermissionModeId
      return .ok ⟨derived, thread, if fork.excludeTurns then { thread with turns := [] } else thread⟩

/-- Everything after the provisional record. -/
def forkInto (around : Surroundings) (answers : ForkAnswers) (source : ExternalThread)
    (fork : DecodedThreadForkRequest) (nativeSessionRef : NativeSessionRef)
    (provisional : StoredThreadRecordV1) : HostCommand (Except ExternalThreadRpcError Forked) := do
  let opened ← try
      let opened ← openSession answers.opened
      pure (some opened)
    catch _ => pure none
  match opened with
  | none =>
    bestEffort (removeProvisional answers.removeProvisional provisional.hostThreadId)
    return .error ⟨-32076, "External Thread fork failed"⟩
  | some (.error error) =>
    bestEffort (removeProvisional answers.removeProvisional provisional.hostThreadId)
    return .error (mapExternalThreadHarnessError error .fork)
  | some (.ok session) =>
    inheritSourceModel around answers source session
    let inheritedPermissionModeId ← inheritSourcePermissionMode answers source session
    try deriveThread around answers source fork nativeSessionRef provisional session inheritedPermissionModeId
    catch _ =>
      remove provisional.hostThreadId
      bestEffort (close answers.close session)
      bestEffort (removeProvisional answers.removeProvisional provisional.hostThreadId)
      pure (.error ⟨-32081, "External Fork could not be persisted"⟩)

/-- The fork of a source that was refreshed. -/
def forkFrom (around : Surroundings) (answers : ForkAnswers) (source : ExternalThread)
    (fork : DecodedThreadForkRequest) : HostCommand (Except ExternalThreadRpcError Forked) := do
  match forkOrigin around source fork with
  | .error error => return .error error
  | .ok (boundary, nativeSessionRef) =>
    let provisional ← try
        let record ← createProvisional answers.createProvisional around.now
          (forkRecordInput answers source fork boundary)
        pure (some record)
      catch _ => pure none
    match provisional with
    | none => return .error ⟨-32081, "External Fork could not be persisted"⟩
    | some provisional => forkInto around answers source fork nativeSessionRef provisional

def executeExternalThreadFork (around : Surroundings) (answers : ForkAnswers)
    (source : ExternalThread) (fork : DecodedThreadForkRequest) :
    HostCommand (Except ExternalThreadRpcError Forked) := do
  match forkRefusal around source fork with
  | some error => return .error error
  | none =>
    if source.running then forkFrom around answers source fork
    else
      match ← refresh around answers.refresh source with
      | .error error => return .error error
      | .ok source => forkFrom around answers source fork

end CodexHost.Source.HostRuntime.ExternalThreads
