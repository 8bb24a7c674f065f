import CodexHost.Foundation.OrderedMap
import CodexHost.Source.MappingStore.SideFiles

/-!
# Store state, global validation and index rebuild

`packages/mapping-store/src/mapping-store.ts:346-374,1419-1472`. The two loops of
`#rebuildIndexes` are recursions over the values of the two maps; a loop that throws
leaves the indexes as far as it had come, which is what the pair in the result says.
An index value is a stored identifier and so never the empty string, which is why the
source can test the looked-up value for truth.
-/
namespace CodexHost.Source.MappingStore
open Foundation Source.SharedContracts

inductive MappingStoreErrorCode where
  | storeLocked | storeNotInitialized | threadNotFound | delegationNotFound | duplicateThreadId
  | duplicateDelegationId | duplicateCreateRequest | duplicateNativeSession | mappingConflict
  | invalidRecord | ioError
  deriving DecidableEq, Repr

/-- What an operation can reject with: the store's own error, a schema error, or the
system error of a file operation. -/
inductive StoreError where
  | mappingStore (code : MappingStoreErrorCode) (message : String)
  | zod (issues : List Issue)
  | system
  deriving DecidableEq, Repr

structure Indexes where
  delegationRequests : OrderedMap String HostThreadId
  delegationChildren : OrderedMap HostThreadId HostThreadId
  createRequests : OrderedMap String HostThreadId
  nativeSessions : OrderedMap String HostThreadId
  hostTurns : OrderedMap HostTurnId HostThreadId
  nativeTurns : OrderedMap String HostTurnId
  deriving DecidableEq

def Indexes.cleared : Indexes := ⟨.empty, .empty, .empty, .empty, .empty, .empty⟩

structure StoreState where
  records : OrderedMap HostThreadId StoredThreadRecordV1
  delegations : OrderedMap HostThreadId StoredDelegationRecordV1
  indexes : Indexes
  sectionPlacements : List StoredSectionPlacementV1
  supersededSessions : List StoredSupersededSessionV1
  initialized : Bool
  deriving DecidableEq

/-- The fields of a `MappingStore` that was only constructed. -/
def StoreState.constructed : StoreState := ⟨.empty, .empty, .cleared, [], [], false⟩

/-- The native session a record occupies in the index: none for a subagent. -/
def indexedSession (record : StoredThreadRecordV1) : Option NativeSessionRef :=
  if record.subagent.isSome then none else record.nativeSessionRef

/-- The mapping loop of `#validateGlobal`. -/
def validateTurnMappings (indexes : Indexes) (replacing : Option HostThreadId) :
    List StoredTurnMappingV1 → Except StoreError Unit
  | [] => .ok ()
  | mapping :: rest =>
    if (indexes.hostTurns.get? mapping.hostTurnId).any (some · ≠ replacing) then
      .error (.mappingStore .mappingConflict "Host Turn is already mapped")
    else if (indexes.nativeTurns.get? (nativeTurnKey mapping)).any (· ≠ mapping.hostTurnId) then
      .error (.mappingStore .mappingConflict "Native Turn is already mapped")
    else validateTurnMappings indexes replacing rest

def validateGlobal (indexes : Indexes) (record : StoredThreadRecordV1)
    (replacing : Option HostThreadId) : Except StoreError Unit :=
  if (indexes.createRequests.get? record.createRequestId).any (some · ≠ replacing) then
    .error (.mappingStore .duplicateCreateRequest "Create request is already stored")
  else if (indexedSession record).any (fun ref =>
      (indexes.nativeSessions.get? (nativeSessionKey ref)).any (some · ≠ replacing)) then
    .error (.mappingStore .duplicateNativeSession "Native Session is already mapped")
  else validateTurnMappings indexes replacing record.turnMappings

def Indexes.addDelegation (indexes : Indexes) (delegation : StoredDelegationRecordV1) : Indexes :=
  { indexes with
    delegationChildren :=
      indexes.delegationChildren.set delegation.childHostThreadId delegation.delegationId
    delegationRequests := match delegation.requestId with
      | none => indexes.delegationRequests
      | some requestId => indexes.delegationRequests.set requestId delegation.delegationId }

/-- The delegation loop of `#rebuildIndexes`. -/
def indexDelegations : List StoredDelegationRecordV1 → Indexes → Except StoreError Unit × Indexes
  | [], indexes => (.ok (), indexes)
  | delegation :: rest, indexes =>
    if indexes.delegationChildren.has delegation.childHostThreadId then
      (.error (.mappingStore .mappingConflict "Delegation child Thread is duplicated"), indexes)
    else if delegation.requestId.any indexes.delegationRequests.has then
      (.error (.mappingStore .mappingConflict "Delegation Request ID is duplicated"),
        { indexes with delegationChildren :=
            indexes.delegationChildren.set delegation.childHostThreadId delegation.delegationId })
    else indexDelegations rest (indexes.addDelegation delegation)

def Indexes.addRecord (indexes : Indexes) (record : StoredThreadRecordV1) : Indexes :=
  { indexes with
    createRequests := indexes.createRequests.set record.createRequestId record.hostThreadId
    nativeSessions := match indexedSession record with
      | none => indexes.nativeSessions
      | some ref => indexes.nativeSessions.set (nativeSessionKey ref) record.hostThreadId
    hostTurns := indexes.hostTurns.setAll
      (record.turnMappings.map fun mapping => (mapping.hostTurnId, record.hostThreadId))
    nativeTurns := indexes.nativeTurns.setAll
      (record.turnMappings.map fun mapping => (nativeTurnKey mapping, mapping.hostTurnId)) }

/-- The record loop of `#rebuildIndexes`. -/
def indexRecords : List StoredThreadRecordV1 → Indexes → Except StoreError Unit × Indexes
  | [], indexes => (.ok (), indexes)
  | record :: rest, indexes =>
    match validateGlobal indexes record (some record.hostThreadId) with
    | .error error => (.error error, indexes)
    | .ok () => indexRecords rest (indexes.addRecord record)

def rebuildIndexes (records : List StoredThreadRecordV1)
    (delegations : List StoredDelegationRecordV1) : Except StoreError Unit × Indexes :=
  match indexDelegations delegations .cleared with
  | (.error error, indexes) => (.error error, indexes)
  | (.ok (), indexes) => indexRecords records indexes

end CodexHost.Source.MappingStore
