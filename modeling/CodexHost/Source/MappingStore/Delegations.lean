import CodexHost.Source.MappingStore.Operations

/-!
# Delegations of the mapping store

`packages/mapping-store/src/mapping-store.ts:597-653,1312-1333`. These three operations
do not pass through the write queue. Each checks the store and forms its effect in one
synchronous stretch (`DelegationCall.start`), awaits its file operation, and then changes
the map and rebuilds the indexes in a second synchronous stretch (`DelegationEffect.finish`).
-/
namespace CodexHost.Source.MappingStore
open Foundation Source.SharedContracts

def terminal (status : DelegationStatus) : Bool :=
  status = .completed || status = .failed || status = .interrupted

/-- The record of `createDelegation` before its schema. -/
def newDelegation (now : Timestamp) (input : CreateDelegationInput) : StoredDelegationRecordV1 where
  revision := 1
  delegationId := input.delegationId
  parentHostThreadId := input.parentHostThreadId
  childHostThreadId := input.childHostThreadId
  sourceHarnessId := input.sourceHarnessId
  targetHarnessId := input.targetHarnessId
  status := input.status.getD .creating
  requestId := input.requestId
  taskDigest := input.taskDigest
  createdAt := now
  updatedAt := now

def parseDelegation (record : StoredDelegationRecordV1) : Except StoreError StoredDelegationRecordV1 :=
  if storedDelegationRecordV1Schema record then .ok record else .error (.zod [])

inductive DelegationCall where
  | create (input : CreateDelegationInput)
  | setStatus (delegationId : HostThreadId) (status : DelegationStatus)
  | remove (delegationId : HostThreadId)
  deriving DecidableEq, Repr

/-- What a call that passed its checks still has to do: publish a record or remove one. -/
inductive DelegationEffect where
  | publish (record : StoredDelegationRecordV1)
  | erase (delegationId : HostThreadId)
  deriving DecidableEq, Repr

def DelegationEffect.delegationId : DelegationEffect → HostThreadId
  | .publish record => record.delegationId
  | .erase delegationId => delegationId

/-- The checks up to the first `await`: an error, an answer without any effect, or the
effect that is left to do. `input.requestId && …` skips an empty Request ID. -/
def DelegationCall.start (now : Timestamp) (store : StoreState) :
    DelegationCall → Except StoreError (Option DelegationEffect)
  | .create input =>
    if store.delegations.has input.delegationId then
      .error (.mappingStore .duplicateDelegationId "Delegation ID already exists")
    else if store.indexes.delegationChildren.has input.childHostThreadId then
      .error (.mappingStore .mappingConflict "Child Thread already has a Delegation")
    else if (input.requestId.filter (· ≠ "")).any store.indexes.delegationRequests.has then
      .error (.mappingStore .duplicateCreateRequest "Delegation Request ID already exists")
    else (parseDelegation (newDelegation now input)).map fun record => some (.publish record)
  | .setStatus delegationId status =>
    match store.delegations.get? delegationId with
    | none => .error (.mappingStore .delegationNotFound "Delegation was not found")
    | some current =>
      if current.status = status then .ok none
      else if terminal current.status && !terminal status then .ok none
      else (parseDelegation { current with revision := current.revision + 1, status, updatedAt := now }).map
          fun next => some (.publish next)
  | .remove delegationId => .ok (some (.erase delegationId))

/-- The rename that publishes the file, or the removal of the file. -/
def DelegationEffect.onDisk (disk : Disk) : DelegationEffect → Disk
  | .publish record =>
    { disk with delegations := disk.delegations.set record.delegationId (.json record) }
  | .erase delegationId => { disk with delegations := disk.delegations.delete delegationId }

/-- `#replaceDelegationFile`, or the `rm` of `removeDelegation`. -/
def DelegationEffect.write (effect : DelegationEffect) : StoreCommand Unit :=
  match effect with
  | .publish _ => do
    try
      writeTemporaryFile
      fileStep effect.onDisk
    catch _ => throw (.mappingStore .ioError "Delegation atomic replacement failed")
  | .erase _ => fileStep effect.onDisk

def DelegationEffect.onMap (delegations : OrderedMap HostThreadId StoredDelegationRecordV1) :
    DelegationEffect → OrderedMap HostThreadId StoredDelegationRecordV1
  | .publish record => delegations.set record.delegationId record
  | .erase delegationId => delegations.delete delegationId

/-- The second synchronous stretch: the map, then the indexes. -/
def DelegationEffect.finish (effect : DelegationEffect) : StoreCommand Unit := do
  modifyStore fun store => { store with delegations := effect.onMap store.delegations }
  rebuild

/-- A call that runs without another one between its two stretches. -/
def DelegationCall.body (now : Timestamp) (call : DelegationCall) : StoreCommand Unit := do
  let store ← readStore
  match ← Command.lift (call.start now store) with
  | none => pure ()
  | some effect =>
    effect.write
    effect.finish

end CodexHost.Source.MappingStore
