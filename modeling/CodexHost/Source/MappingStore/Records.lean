import CodexHost.Source.SharedContracts
import CodexHost.Source.MappingStore.UrlCredentials

/-!
# Stored records and their schemas

`packages/mapping-store/src/records.ts`, and the functions of `mapping-store.ts:160-217`
that divide a record over its Thread file and its metadata file. A timestamp is the
instant in milliseconds that `Date.prototype.toISOString` prints; every such text passes
`isoDateSchema`. Object schemas pass unknown fields through; `unknown` holds them with
their JSON text.
-/
namespace CodexHost.Source.MappingStore
open Foundation Source.SharedContracts

abbrev Timestamp := Int

inductive PathSegment where
  | field (name : String)
  | index (position : Nat)
  deriving DecidableEq, Repr

structure Issue where
  path : List PathSegment
  message : String
  deriving DecidableEq, Repr

def nonBlankTextSchema (maximum : Nat) (value : String) : Bool :=
  !EcmaString.isBlank value && EcmaString.length value ≤ maximum

/-- `/^[A-Za-z0-9._~-]+$/u` -/
def isFilenameSafe (value : String) : Bool :=
  value ≠ "" && value.toList.all fun c =>
    c.isAlphanum || c = '.' || c = '_' || c = '~' || c = '-'

def storedHostThreadIdSchema (value : HostThreadId) : Bool :=
  hostThreadIdSchema value && isFilenameSafe value

structure StoredTurnMappingV1 where
  hostTurnId : HostTurnId
  nativeTurnRef : NativeTurnRef
  nativeCheckpointRef : Option NativeCheckpointRef
  deriving DecidableEq, Repr

def storedTurnMappingV1Schema (mapping : StoredTurnMappingV1) : Bool :=
  hostTurnIdSchema mapping.hostTurnId && nativeTurnRefSchema mapping.nativeTurnRef &&
    mapping.nativeCheckpointRef.all nativeCheckpointRefSchema

structure StoredGitInfoV1 where
  branch : Option String
  originUrl : Option String
  sha : Option String
  deriving DecidableEq, Repr

def storedGitInfoV1Schema (gitInfo : StoredGitInfoV1) : Bool :=
  gitInfo.branch.all (nonBlankTextSchema 4096) &&
    gitInfo.originUrl.all (nonBlankTextSchema 16384) && gitInfo.sha.all (nonBlankTextSchema 1024)

inductive ThreadState where
  | creating | ready
  deriving DecidableEq, Repr

inductive HistoryMode where
  | legacy | paginated
  deriving DecidableEq, Repr

structure ForkSource where
  hostThreadId : HostThreadId
  hostTurnId : HostTurnId
  deriving DecidableEq, Repr

structure Subagent where
  parentHostThreadId : HostThreadId
  nativeSubagentId : String
  role : Option String
  deriving DecidableEq, Repr

structure ProjectlessWorkspace where
  workspaceRoot : String
  outputDirectory : String
  deriving DecidableEq, Repr

structure StoredUsageMeasurements where
  nativeSessionRef : NativeSessionRef
  values : UsageMeasurementsSnapshot
  deriving DecidableEq, Repr

/-- `storedThreadCoreV1Shape`: the fields owned by the Thread record file. -/
structure StoredThreadCoreV1 where
  revision : Nat
  hostThreadId : HostThreadId
  createRequestId : String
  harnessId : HarnessId
  state : ThreadState
  nativeSessionRef : Option NativeSessionRef
  importSourceRef : Option NativeSessionRef
  cwd : String
  title : String
  archived : Bool
  transportModelId : String
  ephemeral : Bool
  historyMode : HistoryMode
  forkSource : Option ForkSource
  subagent : Option Subagent
  turnMappings : List StoredTurnMappingV1
  createdAt : Timestamp
  updatedAt : Timestamp
  unknown : List (String × JsonText)
  deriving DecidableEq, Repr

/-- `storedThreadMetadataFieldsShape`, the fields that `THREAD_METADATA_FIELDS` names. -/
structure StoredThreadMetadataFields where
  usageMeasurements : Option StoredUsageMeasurements
  preview : Option String
  projectId : Option String
  projectlessWorkspace : Option ProjectlessWorkspace
  daybreakEnabled : Option Bool
  gitInfo : Option StoredGitInfoV1
  deriving DecidableEq, Repr

structure StoredThreadRecordV1 extends StoredThreadCoreV1, StoredThreadMetadataFields
  deriving DecidableEq, Repr

structure StoredThreadMetadataV1 extends StoredThreadMetadataFields where
  hostThreadId : HostThreadId
  unknown : List (String × JsonText)
  deriving DecidableEq, Repr

def storedThreadCoreV1Shape (record : StoredThreadCoreV1) : Bool :=
  0 < record.revision && record.revision ≤ maxSafeInteger &&
  storedHostThreadIdSchema record.hostThreadId &&
  nonBlankTextSchema 1024 record.createRequestId &&
  harnessIdSchema record.harnessId &&
  record.nativeSessionRef.all nativeSessionRefSchema &&
  record.importSourceRef.all nativeSessionRefSchema &&
  nonBlankTextSchema 16384 record.cwd &&
  EcmaString.length record.title ≤ 4096 &&
  nonBlankTextSchema 1024 record.transportModelId &&
  record.forkSource.all (fun fork =>
    hostThreadIdSchema fork.hostThreadId && hostTurnIdSchema fork.hostTurnId) &&
  record.subagent.all (fun subagent =>
    hostThreadIdSchema subagent.parentHostThreadId &&
    nonBlankTextSchema 1024 subagent.nativeSubagentId &&
    subagent.role.all fun role => EcmaString.length role ≤ 1024) &&
  record.turnMappings.all storedTurnMappingV1Schema

def storedUsageMeasurementsSchema (usage : StoredUsageMeasurements) : Bool :=
  nativeSessionRefSchema usage.nativeSessionRef && usageMeasurementsSchema usage.values

/-- `.optional().catch(undefined)`: measurements that do not parse are dropped. -/
def StoredThreadMetadataFields.catchUsage (fields : StoredThreadMetadataFields) :
    StoredThreadMetadataFields :=
  { fields with usageMeasurements := fields.usageMeasurements.filter storedUsageMeasurementsSchema }

def storedThreadMetadataFieldsShape (fields : StoredThreadMetadataFields) : Bool :=
  fields.preview.all (fun preview => EcmaString.length preview ≤ 4096) &&
  fields.projectId.all (nonBlankTextSchema 1024) &&
  fields.projectlessWorkspace.all (fun workspace =>
    nonBlankTextSchema 16384 workspace.workspaceRoot &&
    nonBlankTextSchema 16384 workspace.outputDirectory) &&
  fields.gitInfo.all storedGitInfoV1Schema

def storedThreadMetadataV1Schema (metadata : StoredThreadMetadataV1) : Option StoredThreadMetadataV1 :=
  if storedHostThreadIdSchema metadata.hostThreadId &&
      storedThreadMetadataFieldsShape metadata.toStoredThreadMetadataFields then
    some { metadata with
      toStoredThreadMetadataFields := metadata.toStoredThreadMetadataFields.catchUsage }
  else none

/-- `${harnessId}\u0000${nativeSessionId}` -/
def nativeSessionKey (ref : NativeSessionRef) : String :=
  ref.harnessId ++ "\x00" ++ ref.nativeSessionId

/-- `${harnessId}\u0000${nativeSessionId}\u0000${nativeTurnKey}` -/
def nativeTurnKey (mapping : StoredTurnMappingV1) : String :=
  mapping.nativeTurnRef.harnessId ++ "\x00" ++ mapping.nativeTurnRef.nativeSessionId ++ "\x00" ++
    mapping.nativeTurnRef.nativeTurnKey

/-- The checks `refineThreadRecord` makes on one Turn Ref of one mapping. -/
def refineTurnRef (record : StoredThreadCoreV1) (index : Nat) (name : String)
    (harnessId nativeSessionId : String) : List Issue :=
  (if harnessId ≠ record.harnessId then
    [⟨[.field "turnMappings", .index index, .field name, .field "harnessId"],
      "Turn Ref Harness must match the Thread Harness"⟩] else []) ++
  (if record.nativeSessionRef.any (fun ref => nativeSessionId ≠ ref.nativeSessionId) then
    [⟨[.field "turnMappings", .index index, .field name, .field "nativeSessionId"],
      "Turn Ref Native Session must match the Thread Native Session"⟩] else [])

/-- The mapping loop of `refineThreadRecord`, with the identities seen so far. -/
def refineTurnMappings (record : StoredThreadCoreV1) :
    (index : Nat) → (hostTurnIds nativeTurnKeys : List String) →
    List StoredTurnMappingV1 → List Issue
  | _, _, _, [] => []
  | index, hostTurnIds, nativeTurnKeys, mapping :: rest =>
    (if mapping.hostTurnId ∈ hostTurnIds then
      [⟨[.field "turnMappings", .index index, .field "hostTurnId"],
        "Host Turn IDs must be unique in a Thread"⟩] else []) ++
    (if nativeTurnKey mapping ∈ nativeTurnKeys then
      [⟨[.field "turnMappings", .index index, .field "nativeTurnRef"],
        "Native Turn Refs must be unique in a Thread"⟩] else []) ++
    refineTurnRef record index "nativeTurnRef" mapping.nativeTurnRef.harnessId
      mapping.nativeTurnRef.nativeSessionId ++
    (match mapping.nativeCheckpointRef with
      | none => []
      | some ref => refineTurnRef record index "nativeCheckpointRef" ref.harnessId ref.nativeSessionId) ++
    refineTurnMappings record (index + 1) (mapping.hostTurnId :: hostTurnIds)
      (nativeTurnKey mapping :: nativeTurnKeys) rest

def refineThreadRecord (record : StoredThreadCoreV1) : List Issue :=
  (if record.state = .ready ∧ record.nativeSessionRef = none then
    [⟨[.field "nativeSessionRef"], "Ready Thread must have a Native Session Ref"⟩] else []) ++
  (if record.nativeSessionRef.any (fun ref => ref.harnessId ≠ record.harnessId) then
    [⟨[.field "nativeSessionRef", .field "harnessId"],
      "Native Session Harness must match the Thread Harness"⟩] else []) ++
  (if record.importSourceRef.any (fun ref => ref.harnessId ≠ record.harnessId) then
    [⟨[.field "importSourceRef", .field "harnessId"],
      "Import source Harness must match the Thread Harness"⟩] else []) ++
  (if record.importSourceRef.isSome ∧ record.subagent.isSome then
    [⟨[.field "importSourceRef"], "Subagent Threads cannot have an import source"⟩] else []) ++
  refineTurnMappings record 0 [] [] record.turnMappings

/-- What `storedThreadRecordV1Schema` accepts: both shapes, and no refinement issue. -/
def StoredThreadRecordV1.accepted (record : StoredThreadRecordV1) : Bool :=
  storedThreadCoreV1Shape record.toStoredThreadCoreV1 &&
  storedThreadMetadataFieldsShape record.toStoredThreadMetadataFields &&
  (refineThreadRecord record.toStoredThreadCoreV1).isEmpty

def storedThreadRecordV1Schema (record : StoredThreadRecordV1) : Except (List Issue) StoredThreadRecordV1 :=
  if record.accepted then
    .ok { record with
      toStoredThreadMetadataFields := record.toStoredThreadMetadataFields.catchUsage }
  else .error (refineThreadRecord record.toStoredThreadCoreV1)

def noThreadMetadata : StoredThreadMetadataFields := ⟨none, none, none, none, none, none⟩

/-- The Desktop metadata file content for a record, or none when it carries no field. -/
def threadMetadataOf (record : StoredThreadRecordV1) : Option StoredThreadMetadataV1 :=
  if record.toStoredThreadMetadataFields = noThreadMetadata then none
  else some ⟨record.toStoredThreadMetadataFields, record.hostThreadId, []⟩

/-- The record as written to the Thread file. The source names five of the six
metadata fields here; `usageMeasurements` stays in the record it returns. -/
def withoutThreadMetadata (record : StoredThreadRecordV1) : StoredThreadRecordV1 :=
  { record with
    preview := none, projectId := none, projectlessWorkspace := none
    daybreakEnabled := none, gitInfo := none }

def withThreadMetadata (record : StoredThreadRecordV1) (metadata : StoredThreadMetadataV1) :
    StoredThreadRecordV1 :=
  let core := withoutThreadMetadata record
  { core with
    usageMeasurements := metadata.usageMeasurements <|> core.usageMeasurements
    preview := metadata.preview <|> core.preview
    projectId := metadata.projectId <|> core.projectId
    projectlessWorkspace := metadata.projectlessWorkspace <|> core.projectlessWorkspace
    daybreakEnabled := metadata.daybreakEnabled <|> core.daybreakEnabled
    gitInfo := metadata.gitInfo <|> core.gitInfo }

/-- A patch field of the source's type `T | null | undefined`: absent, or cleared, or set. -/
abbrev Patch (α : Type) := Option (Option α)

structure GitInfoPatch where
  branch : Patch String
  originUrl : Patch String
  sha : Patch String
  deriving DecidableEq, Repr

structure ThreadMetadataPatch where
  preview : Patch String
  projectId : Patch String
  projectlessWorkspace : Patch ProjectlessWorkspace
  daybreakEnabled : Option Bool
  gitInfo : Option GitInfoPatch
  deriving DecidableEq, Repr

/-- One name of the Git loop: the patched or the current value, kept when it is truthy. -/
def patchedGitField (patch : Patch String) (current : Option String) : Option String :=
  (patch.getD current).filter (· ≠ "")

def applyThreadMetadataPatch (parseUrl : UrlParser) (current : StoredThreadRecordV1)
    (patch : ThreadMetadataPatch) : StoredThreadRecordV1 :=
  { current with
    preview := patch.preview.getD current.preview
    projectId := patch.projectId.getD current.projectId
    projectlessWorkspace := patch.projectlessWorkspace.getD current.projectlessWorkspace
    daybreakEnabled := patch.daybreakEnabled <|> current.daybreakEnabled
    gitInfo := match patch.gitInfo with
      | none => current.gitInfo
      | some gitPatch =>
        let gitInfo : StoredGitInfoV1 :=
          { branch := patchedGitField gitPatch.branch (current.gitInfo.bind (·.branch))
            originUrl := (patchedGitField gitPatch.originUrl
              (current.gitInfo.bind (·.originUrl))).map (withoutUrlCredentials parseUrl)
            sha := patchedGitField gitPatch.sha (current.gitInfo.bind (·.sha)) }
        if gitInfo = ⟨none, none, none⟩ then none else some gitInfo }

inductive DelegationStatus where
  | creating | running | completed | failed | interrupted
  deriving DecidableEq, Repr

structure StoredDelegationRecordV1 where
  revision : Nat
  delegationId : HostThreadId
  parentHostThreadId : HostThreadId
  childHostThreadId : HostThreadId
  sourceHarnessId : HarnessId
  targetHarnessId : HarnessId
  status : DelegationStatus
  requestId : Option String
  taskDigest : String
  createdAt : Timestamp
  updatedAt : Timestamp
  deriving DecidableEq, Repr

/-- `/^[a-f0-9]{64}$/u` -/
def taskDigestSchema (value : String) : Bool :=
  value.toList.length = 64 && value.toList.all fun c => c.isDigit || ('a' ≤ c && c ≤ 'f')

def storedDelegationRecordV1Schema (record : StoredDelegationRecordV1) : Bool :=
  0 < record.revision && record.revision ≤ maxSafeInteger &&
  storedHostThreadIdSchema record.delegationId &&
  hostThreadIdSchema record.parentHostThreadId &&
  hostThreadIdSchema record.childHostThreadId &&
  harnessIdSchema record.sourceHarnessId && harnessIdSchema record.targetHarnessId &&
  record.requestId.all (nonBlankTextSchema 1024) && taskDigestSchema record.taskDigest &&
  record.parentHostThreadId ≠ record.childHostThreadId

structure CreateDelegationInput where
  delegationId : HostThreadId
  parentHostThreadId : HostThreadId
  childHostThreadId : HostThreadId
  sourceHarnessId : HarnessId
  targetHarnessId : HarnessId
  status : Option DelegationStatus
  requestId : Option String
  taskDigest : String
  deriving DecidableEq, Repr

structure CreateProvisionalThreadInput where
  hostThreadId : HostThreadId
  createRequestId : String
  harnessId : HarnessId
  importSourceRef : Option NativeSessionRef
  cwd : String
  title : Option String
  transportModelId : String
  ephemeral : Bool
  historyMode : HistoryMode
  projectlessWorkspace : Option ProjectlessWorkspace
  forkSource : Option ForkSource
  subagent : Option Subagent
  deriving DecidableEq, Repr

structure CommitReadyThreadInput where
  hostThreadId : HostThreadId
  nativeSessionRef : NativeSessionRef
  turnMappings : Option (List StoredTurnMappingV1)
  deriving DecidableEq, Repr

structure RebindSubagentSessionInput where
  hostThreadId : HostThreadId
  parentHostThreadId : HostThreadId
  previousNativeSessionRef : NativeSessionRef
  nativeSessionRef : NativeSessionRef
  createRequestId : String
  deriving DecidableEq, Repr

structure ReplaceReadySessionInput where
  hostThreadId : HostThreadId
  expectedRevision : Nat
  expectedNativeSessionRef : NativeSessionRef
  nativeSessionRef : NativeSessionRef
  turnMappings : List StoredTurnMappingV1
  forkSource : ForkSource
  deriving DecidableEq, Repr

structure ReplaceReadySessionAfterLastTurnInput where
  hostThreadId : HostThreadId
  expectedRevision : Nat
  expectedNativeSessionRef : NativeSessionRef
  nativeSessionRef : NativeSessionRef
  turnMappings : List StoredTurnMappingV1
  deriving DecidableEq, Repr

end CodexHost.Source.MappingStore
