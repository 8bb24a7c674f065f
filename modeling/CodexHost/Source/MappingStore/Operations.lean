import CodexHost.Source.MappingStore.Files

/-!
# Thread operations of the mapping store

`packages/mapping-store/src/mapping-store.ts:655-1002,1040-1205`. Each operation is the
body that `#enqueue` chains behind the earlier ones, so one body runs to its end before
the next starts. The `change` argument of `#update` is a function of the store (which
`rebindSubagentSession` reads) and of the current record; `none` leaves the record as it
is. The clock is read once in an operation and is its `now` argument.
-/
namespace CodexHost.Source.MappingStore
open Foundation Source.SharedContracts

def conflict (message : String) : StoreError := .mappingStore .mappingConflict message

/-- `#rebuildIndexes` on the store as it is; a throw leaves the indexes half built. -/
def rebuild : StoreCommand Unit := do
  let store ← readStore
  let rebuilt := rebuildIndexes store.records.values store.delegations.values
  modifyStore fun store => { store with indexes := rebuilt.2 }
  Command.lift rebuilt.1

abbrev Change := StoreState → StoredThreadRecordV1 → Except StoreError (Option StoredThreadRecordV1)

def update (now : Timestamp) (hostThreadId : HostThreadId) (change : Change)
    (preserveUpdatedAt : Bool) : StoreCommand StoredThreadRecordV1 := do
  let store ← readStore
  match store.records.get? hostThreadId with
  | none => throw (.mappingStore .threadNotFound "External Thread was not found")
  | some current =>
    match ← Command.lift (change store current) with
    | none => return current
    | some changed =>
      let next ← parseRecord { changed with
          revision := current.revision + 1
          updatedAt := if preserveUpdatedAt then current.updatedAt else now }
      Command.lift (validateGlobal store.indexes next (some hostThreadId))
      replaceFile hostThreadId next true
      let metadata := threadMetadataOf next
      if threadMetadataOf current ≠ metadata then
        try writeMetadataFile now hostThreadId metadata
        catch error =>
          -- Restoring the previous record leaves the disk equal to memory.
          try replaceFile hostThreadId current false catch _ => pure ()
          throw error
      modifyStore fun store => { store with records := store.records.set hostThreadId next }
      rebuild
      return next

/-- The record file of `#writeNew`, which takes its metadata file back when it fails. -/
def writeNewFile (record : StoredThreadRecordV1) : StoreCommand Unit := do
  try replaceFile record.hostThreadId record false
  catch error =>
    if (threadMetadataOf record).isSome then
      try fileStep fun disk => { disk with metadata := disk.metadata.delete record.hostThreadId }
      catch _ => pure ()
    throw error

/-- `#writeNew`: placement metadata first, so a crash leaves at most an orphan sidecar. -/
def writeNew (now : Timestamp) (record : StoredThreadRecordV1) : StoreCommand Unit := do
  let store ← readStore
  Command.lift (validateGlobal store.indexes record none)
  if (threadMetadataOf record).isSome then
    writeMetadataFile now record.hostThreadId (threadMetadataOf record)
  writeNewFile record
  modifyStore fun store =>
    { store with records := store.records.set record.hostThreadId record }
  rebuild

/-- `#remove`: metadata last, so any failed unlink leaves it intact. -/
def remove (hostThreadId : HostThreadId) : StoreCommand Unit := do
  let store ← readStore
  match store.records.get? hostThreadId with
  | none => pure ()
  | some current =>
    fileStep fun disk => { disk with threads := disk.threads.delete hostThreadId }
    try
      fileStep fun disk => { disk with backups := disk.backups.delete hostThreadId }
      fileStep fun disk => { disk with metadata := disk.metadata.delete hostThreadId }
    catch error =>
      replaceFile hostThreadId current false
      throw error
    modifyStore fun store => { store with records := store.records.delete hostThreadId }
    rebuild

def provisionalRecord (now : Timestamp) (input : CreateProvisionalThreadInput) : StoredThreadRecordV1 where
  revision := 1
  hostThreadId := input.hostThreadId
  createRequestId := input.createRequestId
  harnessId := input.harnessId
  state := .creating
  nativeSessionRef := none
  importSourceRef := input.importSourceRef
  cwd := input.cwd
  title := input.title.getD ""
  archived := false
  transportModelId := input.transportModelId
  ephemeral := input.ephemeral
  historyMode := input.historyMode
  forkSource := input.forkSource
  subagent := input.subagent
  turnMappings := []
  createdAt := now
  updatedAt := now
  unknown := []
  toStoredThreadMetadataFields :=
    { noThreadMetadata with projectlessWorkspace := input.projectlessWorkspace }

def createProvisional (now : Timestamp) (input : CreateProvisionalThreadInput) :
    StoreCommand StoredThreadRecordV1 := do
  let store ← readStore
  match store.indexes.createRequests.get? input.createRequestId with
  | some existingThreadId =>
    match store.records.get? existingThreadId with
    | none => throw (.mappingStore .ioError "Create request index is stale")
    | some existing => return existing
  | none =>
    if store.records.has input.hostThreadId then
      throw (.mappingStore .duplicateThreadId "Host Thread ID already exists")
    let record ← parseRecord (provisionalRecord now input)
    writeNew now record
    return record

/-- The arrays and the two maps of `#mergeMappings`; the maps hold positions in `merged`,
which stand for the shared mapping objects. -/
structure MergeState where
  merged : List StoredTurnMappingV1
  byHost : OrderedMap HostTurnId Nat
  byNative : OrderedMap String Nat

def MergeState.start (current : List StoredTurnMappingV1) : MergeState where
  merged := current
  byHost := OrderedMap.empty.setAll (current.zipIdx.map fun e => (e.1.hostTurnId, e.2))
  byNative := OrderedMap.empty.setAll (current.zipIdx.map fun e => (nativeTurnKey e.1, e.2))

def MergeState.add (s : MergeState) (update : StoredTurnMappingV1) : MergeState where
  merged := s.merged ++ [update]
  byHost := s.byHost.set update.hostTurnId s.merged.length
  byNative := s.byNative.set (nativeTurnKey update) s.merged.length

/-- Merging an update into the mapping that both its identities name. -/
def MergeState.amend (s : MergeState) (position : Nat) (update : StoredTurnMappingV1) :
    Except StoreError MergeState :=
  match s.merged[position]? with
  | none => .ok s
  | some hostMatch =>
    if hostMatch.nativeTurnRef ≠ update.nativeTurnRef then
      .error (conflict "Host Turn maps to another Native Turn")
    else match hostMatch.nativeCheckpointRef, update.nativeCheckpointRef with
      | some known, some given =>
        if known ≠ given then .error (conflict "Fork Checkpoint identity changed") else .ok s
      | none, some given =>
        .ok { s with merged :=
          s.merged.set position { hostMatch with nativeCheckpointRef := some given } }
      | _, none => .ok s

def MergeState.merge (s : MergeState) (update : StoredTurnMappingV1) : Except StoreError MergeState :=
  match s.byHost.get? update.hostTurnId, s.byNative.get? (nativeTurnKey update) with
  | none, none => .ok (s.add update)
  | some hostMatch, some nativeMatch =>
    if hostMatch ≠ nativeMatch then .error (conflict "Turn identity mapping conflicts")
    else s.amend hostMatch update
  | _, _ => .error (conflict "Turn identity mapping conflicts")

def mergeMappings (current updates : List StoredTurnMappingV1) :
    Except StoreError (List StoredTurnMappingV1) :=
  (updates.foldlM MergeState.merge (MergeState.start current)).map (·.merged)

def commitReady (input : CommitReadyThreadInput) : Change := fun _ current =>
  (mergeMappings current.turnMappings (input.turnMappings.getD [])).map fun turnMappings =>
    some { current with
      state := .ready, nativeSessionRef := some input.nativeSessionRef, turnMappings }

/-- `{ ...mapping.nativeTurnRef, nativeSessionId }` and the same for the checkpoint. -/
def rebindMapping (nativeSessionId : String) (mapping : StoredTurnMappingV1) : StoredTurnMappingV1 :=
  { mapping with
    nativeTurnRef := { mapping.nativeTurnRef with nativeSessionId }
    nativeCheckpointRef := mapping.nativeCheckpointRef.map fun ref => { ref with nativeSessionId } }

def rebindSubagentSession (input : RebindSubagentSessionInput) : Change := fun store current =>
  let admitted := match store.records.get? input.parentHostThreadId with
    | none => false
    | some parent =>
      current.state = .ready && current.nativeSessionRef.isSome &&
      current.subagent.any (·.parentHostThreadId = input.parentHostThreadId) &&
      parent.state = .ready && parent.harnessId = current.harnessId &&
      input.previousNativeSessionRef.harnessId = current.harnessId &&
      input.nativeSessionRef.harnessId = current.harnessId &&
      parent.nativeSessionRef = some input.nativeSessionRef
  if !admitted then
    .error (conflict "Subagent replacement must belong to its current parent Session")
  else if current.nativeSessionRef = some input.nativeSessionRef ∧
      current.createRequestId = input.createRequestId then
    .ok none
  else if current.nativeSessionRef ≠ some input.previousNativeSessionRef then
    .error (conflict "Subagent replacement source Session is stale")
  else
    .ok (some { current with
      createRequestId := input.createRequestId
      nativeSessionRef := some input.nativeSessionRef
      turnMappings :=
        current.turnMappings.map (rebindMapping input.nativeSessionRef.nativeSessionId) })

/-- `some(({ hostTurnId }, index) => hostTurnId !== current.turnMappings[index]?.hostTurnId)` -/
def leavesHostTurnPrefix (mappings current : List StoredTurnMappingV1) : Bool :=
  mappings.zipIdx.any fun e => current[e.2]?.map (·.hostTurnId) ≠ some e.1.hostTurnId

def replaceReadySession (input : ReplaceReadySessionInput) : Change := fun _ current =>
  if current.state ≠ .ready ∨ current.nativeSessionRef = none ∨ current.revision ≠ input.expectedRevision ∨
      current.nativeSessionRef ≠ some input.expectedNativeSessionRef ∨
      current.forkSource.map (·.hostThreadId) ≠ some input.forkSource.hostThreadId ∨
      current.nativeSessionRef.map (·.nativeSessionId) = some input.nativeSessionRef.nativeSessionId ∨
      input.turnMappings.length < 1 ∨
      input.turnMappings.length ≥ current.turnMappings.length ∨
      leavesHostTurnPrefix input.turnMappings current.turnMappings then
    .error (conflict "Ready Session replacement must match the expected record and retain an exact shorter derived prefix")
  else
    .ok (some { current with
      nativeSessionRef := some input.nativeSessionRef
      turnMappings := input.turnMappings
      forkSource := some input.forkSource })

def replaceReadySessionAfterLastTurn (input : ReplaceReadySessionAfterLastTurnInput) : Change :=
  fun _ current =>
  if current.state ≠ .ready ∨ current.nativeSessionRef = none ∨ current.revision ≠ input.expectedRevision ∨
      current.nativeSessionRef ≠ some input.expectedNativeSessionRef ∨
      (input.turnMappings.length : Int) ≠ current.turnMappings.length - 1 ∨
      leavesHostTurnPrefix input.turnMappings current.turnMappings then
    .error (conflict "Last-Turn Session replacement must match the expected record and retain the exact shorter Host Turn prefix")
  else
    .ok (some { current with
      nativeSessionRef := some input.nativeSessionRef, turnMappings := input.turnMappings })

def upsertTurnMappings (mappings : List StoredTurnMappingV1) : Change := fun _ current =>
  (mergeMappings current.turnMappings mappings).map fun turnMappings =>
    some { current with turnMappings }

/-- The mapping loop of `reconcileTurnMappings`, with the identities seen so far. -/
def reconcileLoop (current : MergeState) :
    (seenHost seenNative : List String) → List StoredTurnMappingV1 → Except StoreError Unit
  | _, _, [] => .ok ()
  | seenHost, seenNative, update :: rest =>
    let hostMatch := current.byHost.get? update.hostTurnId
    let nativeMatch := current.byNative.get? (nativeTurnKey update)
    if hostMatch.isSome ∧ nativeMatch.isSome ∧ hostMatch ≠ nativeMatch then
      .error (conflict "Turn identity mapping conflicts")
    else if (hostMatch.bind (current.merged[·]?)).any (·.nativeTurnRef ≠ update.nativeTurnRef) then
      .error (conflict "Host Turn maps to another Native Turn")
    else if (nativeMatch.bind (current.merged[·]?)).any (·.hostTurnId ≠ update.hostTurnId) then
      .error (conflict "Native Turn maps to another Host Turn")
    else if update.hostTurnId ∈ seenHost ∨ nativeTurnKey update ∈ seenNative then
      .error (conflict "Snapshot reconciliation contains a duplicate Turn mapping")
    else
      reconcileLoop current (update.hostTurnId :: seenHost) (nativeTurnKey update :: seenNative) rest

def reconcileTurnMappings (mappings : List StoredTurnMappingV1) : Change := fun _ current =>
  if current.state ≠ .ready ∨ current.nativeSessionRef = none then
    .error (conflict "Only a ready Thread can reconcile Snapshot mappings")
  else (reconcileLoop (MergeState.start current.turnMappings) [] [] mappings).map fun _ =>
    if current.turnMappings = mappings then none
    else some { current with turnMappings := mappings }

def setTitle (title : String) : Change := fun _ current => .ok (some { current with title })

def setTransportModelId (transportModelId : String) : Change := fun _ current =>
  .ok (if current.transportModelId = transportModelId then none
    else some { current with transportModelId })

def setArchived (archived : Bool) : Change := fun _ current =>
  .ok (if current.archived = archived then none else some { current with archived })

def updateMetadata (parseUrl : UrlParser) (patch : ThreadMetadataPatch)
    (ifProjectId : Option String) : Change := fun _ current =>
  if ifProjectId.isSome ∧ current.projectId ≠ ifProjectId then .ok none
  else
    let next := applyThreadMetadataPatch parseUrl current patch
    .ok (if next = current then none else some next)

/-- `Object.keys(patch).every((key) => key === "preview")` -/
def ThreadMetadataPatch.previewOnly (patch : ThreadMetadataPatch) : Bool :=
  patch.projectId.isNone && patch.projectlessWorkspace.isNone && patch.daybreakEnabled.isNone &&
    patch.gitInfo.isNone

/-- One field of the measurement merge: the prior value of a retained Turn, replaced by
a given one of a retained Turn that is not older. -/
def mergeMeasurement (retained : List HostTurnId) (prior given : Option UsageMeasurement) :
    Option UsageMeasurement :=
  let kept := prior.filter (·.turnId ∈ retained)
  match given.filter (·.turnId ∈ retained) with
  | none => kept
  | some value => if kept.all (·.at_ ≤ value.at_) then some value else kept

/-- The stored measurements of the expected Session; those of another one are dropped. -/
def priorMeasurements (current : StoredThreadRecordV1)
    (expectedNativeSessionRef : NativeSessionRef) : UsageMeasurementsSnapshot :=
  match current.usageMeasurements with
  | none => ⟨none, none⟩
  | some prior =>
    if prior.nativeSessionRef = expectedNativeSessionRef then prior.values else ⟨none, none⟩

def mergeMeasurements (current : StoredThreadRecordV1)
    (expectedNativeSessionRef : NativeSessionRef) (values : UsageMeasurementsSnapshot) :
    Option StoredUsageMeasurements :=
  let retained := current.turnMappings.map (·.hostTurnId)
  let prior := priorMeasurements current expectedNativeSessionRef
  let merged : UsageMeasurementsSnapshot :=
    { outputTokensPerSecond :=
        mergeMeasurement retained prior.outputTokensPerSecond values.outputTokensPerSecond
      timeToFirstOutputMs :=
        mergeMeasurement retained prior.timeToFirstOutputMs values.timeToFirstOutputMs }
  if merged = ⟨none, none⟩ then none else some ⟨expectedNativeSessionRef, merged⟩

def saveUsageMeasurements (now : Timestamp) (hostThreadId : HostThreadId)
    (expectedNativeSessionRef : NativeSessionRef) (values : UsageMeasurementsSnapshot) :
    StoreCommand StoredThreadRecordV1 := do
  if usageMeasurementsSchema values then
    let store ← readStore
    match store.records.get? hostThreadId with
    | none => throw (.mappingStore .threadNotFound "External Thread was not found")
    | some current =>
      if current.state ≠ .ready ∨ current.nativeSessionRef ≠ some expectedNativeSessionRef then
        return current
      else
        let next := { current with
          usageMeasurements := mergeMeasurements current expectedNativeSessionRef values }
        if current.usageMeasurements = next.usageMeasurements then return current
        else
          writeMetadataFile now hostThreadId (threadMetadataOf next)
          modifyStore fun store => { store with records := store.records.set hostThreadId next }
          return next
  else throw (.zod [])

def removeProvisional (hostThreadId : HostThreadId) : StoreCommand Unit := do
  let store ← readStore
  if (store.records.get? hostThreadId).any (·.state = .ready) then
    throw (conflict "Ready Thread cannot be removed as provisional")
  remove hostThreadId

/-- `#recordSuperseded`, queued after its replacement; best effort, so nothing escapes. -/
def recordSuperseded (now : Timestamp) (previous : NativeSessionRef)
    (replaced : StoredThreadRecordV1) : StoreCommand Unit := do
  match replaced.nativeSessionRef with
  | none => pure ()
  | some ref =>
    if ref.nativeSessionId = previous.nativeSessionId then pure ()
    else
      try
        let store ← readStore
        let others := store.supersededSessions.filter fun session =>
          !(session.harnessId = previous.harnessId && (session.nativeSessionId = ref.nativeSessionId ||
              session.nativeSessionId = previous.nativeSessionId))
        let sessions := latestSupersededSessions (others ++
          [⟨previous.harnessId, previous.nativeSessionId, replaced.hostThreadId, now⟩])
        match parseSupersededSessions sessions with
        | none => throw (.zod [])
        | some parsed =>
          fileStep id -- mkdir
          writeTemporaryFile
          fileStep fun disk => { disk with supersededSessions := some (.json parsed) }
          modifyStore fun store => { store with supersededSessions := parsed }
      catch _ => pure ()

/-- `writeSectionPlacementsFile` for the placements of Threads the store still has. -/
def replaceSectionPlacements (placements : List StoredSectionPlacementV1) : StoreCommand Unit := do
  let store ← readStore
  let retained := placements.filter fun placement => store.records.has placement.hostThreadId
  try
    match parseSectionPlacements retained with
    | none => throw (.zod [])
    | some parsed =>
      writeTemporaryFile
      fileStep fun disk => { disk with sectionPlacements := some (.json parsed) }
      modifyStore fun store => { store with sectionPlacements := parsed }
  catch _ => throw (.mappingStore .ioError "Section placements could not be persisted")

/-- An entry of the write queue. -/
inductive QueuedOperation where
  | createProvisional (input : CreateProvisionalThreadInput)
  | commitReady (input : CommitReadyThreadInput)
  | rebindSubagentSession (input : RebindSubagentSessionInput)
  | replaceReadySession (input : ReplaceReadySessionInput)
  | replaceReadySessionAfterLastTurn (input : ReplaceReadySessionAfterLastTurnInput)
  | upsertTurnMappings (hostThreadId : HostThreadId) (mappings : List StoredTurnMappingV1)
  | reconcileTurnMappings (hostThreadId : HostThreadId) (mappings : List StoredTurnMappingV1)
  | setTitle (hostThreadId : HostThreadId) (title : String)
  | setTransportModelId (hostThreadId : HostThreadId) (transportModelId : String)
  | setArchived (hostThreadId : HostThreadId) (archived : Bool)
  | updateMetadata (hostThreadId : HostThreadId) (patch : ThreadMetadataPatch)
      (ifProjectId : Option String)
  | saveUsageMeasurements (hostThreadId : HostThreadId)
      (expectedNativeSessionRef : NativeSessionRef) (values : UsageMeasurementsSnapshot)
  | removeProvisional (hostThreadId : HostThreadId)
  | removeThread (hostThreadId : HostThreadId)
  | recordSuperseded (previous : NativeSessionRef) (replaced : StoredThreadRecordV1)
  | replaceSectionPlacements (placements : List StoredSectionPlacementV1)

/-- The Thread, the change and the `preserveUpdatedAt` flag of an operation that goes
through `#update`. -/
def QueuedOperation.asUpdate (parseUrl : UrlParser) : QueuedOperation → Option (HostThreadId × Change × Bool)
  | .commitReady input => some (input.hostThreadId, MappingStore.commitReady input, false)
  | .rebindSubagentSession input =>
    some (input.hostThreadId, MappingStore.rebindSubagentSession input, false)
  | .replaceReadySession input =>
    some (input.hostThreadId, MappingStore.replaceReadySession input, false)
  | .replaceReadySessionAfterLastTurn input =>
    some (input.hostThreadId, MappingStore.replaceReadySessionAfterLastTurn input, false)
  | .upsertTurnMappings id mappings => some (id, MappingStore.upsertTurnMappings mappings, false)
  | .reconcileTurnMappings id mappings =>
    some (id, MappingStore.reconcileTurnMappings mappings, false)
  | .setTitle id title => some (id, MappingStore.setTitle title, false)
  | .setTransportModelId id model => some (id, MappingStore.setTransportModelId model, false)
  | .setArchived id archived => some (id, MappingStore.setArchived archived, false)
  | .updateMetadata id patch ifProjectId =>
    some (id, MappingStore.updateMetadata parseUrl patch ifProjectId, patch.previewOnly)
  | _ => none

def QueuedOperation.body (parseUrl : UrlParser) (now : Timestamp) (op : QueuedOperation) :
    StoreCommand Unit := do
  match op.asUpdate parseUrl with
  | some (hostThreadId, change, preserveUpdatedAt) =>
    let _ ← update now hostThreadId change preserveUpdatedAt
  | none =>
    match op with
    | .createProvisional input => let _ ← MappingStore.createProvisional now input
    | .saveUsageMeasurements id ref values =>
      let _ ← MappingStore.saveUsageMeasurements now id ref values
    | .removeProvisional id => MappingStore.removeProvisional id
    | .removeThread id => remove id
    | .recordSuperseded previous replaced => MappingStore.recordSuperseded now previous replaced
    | .replaceSectionPlacements placements => MappingStore.replaceSectionPlacements placements
    | _ => pure ()

end CodexHost.Source.MappingStore
