import CodexHost.Source.MappingStore.Operations

/-!
# Loading a store from its files

`packages/mapping-store/src/mapping-store.ts:388-557`, without the lock of
`#acquireLock`, which excludes other processes and reads none of these files. `readdir`
answers in any order, so the order is a parameter: a rearrangement of the names. The
parallel deletions of orphan metadata touch different files and never fail the whole, so
they are taken one after the other.
-/
namespace CodexHost.Source.MappingStore
open Foundation Source.SharedContracts

structure DirectoryOrder where
  arrange : List HostThreadId → List HostThreadId
  perm : ∀ names, (arrange names).Perm names

theorem DirectoryOrder.mem_arrange (order : DirectoryOrder) {names : List HostThreadId}
    {id : HostThreadId} : id ∈ order.arrange names ↔ id ∈ names :=
  (order.perm names).mem_iff

/-- The quarantine of one unreadable Thread, and whether its file was archived. A Thread
whose file stays is pending: a later start meets it again. -/
def quarantineThread (now : Timestamp) (name : HostThreadId) : StoreCommand Bool :=
  let archive : QuarantineName := ⟨name, now, .invalid⟩
  let copy : QuarantineName := ⟨name, now, .metadataCopy⟩
  tryCatch (do
    fileStep id -- stat
    let disk ← readDisk
    if disk.quarantine.has archive then pure false
    else
      match disk.metadata.get? name with
      | none =>
        fileStep id -- copyFile fails with ENOENT, and a stat tells that it is the source
      | some content =>
        -- COPYFILE_EXCL
        if disk.quarantine.has copy then throw .system
        fileStep fun disk =>
          { disk with quarantine := disk.quarantine.set copy (.metadata content) }
      fileStep fun disk =>
        match disk.threads.get? name with
        | none => disk
        | some content =>
          { disk with
            threads := disk.threads.delete name
            quarantine := disk.quarantine.set archive (.thread content) }
      pure true) fun _ => pure false

/-- `#readRecord` of the Thread file -/
def readPrimary (name : HostThreadId) : StoreCommand StoredThreadRecordV1 := do
  fileStep id -- readFile
  let disk ← readDisk
  Command.lift (readRecord name (disk.threads.get? name))

/-- `#readRecord` of the backup, which then replaces the Thread file. -/
def restoreBackup (name : HostThreadId) : StoreCommand StoredThreadRecordV1 := do
  fileStep id -- readFile
  let disk ← readDisk
  let record ← Command.lift (readRecord name (disk.backups.get? name))
  replaceFile name record false
  return record

/-- The record of a Thread, from its file or its backup; else whether it was archived. -/
def recoverThread (now : Timestamp) (name : HostThreadId) : StoreCommand (Except Bool StoredThreadRecordV1) :=
  tryCatch (do
    let record ← readPrimary name
    return .ok record) fun _ =>
  tryCatch (do
    let record ← restoreBackup name
    return .ok record) fun _ => do
  let archived ← quarantineThread now name
  return .error archived

/-- A `creating` record with no native session to resume or import from. -/
def discardable (record : StoredThreadRecordV1) : Bool :=
  record.state = .creating && record.nativeSessionRef.isNone && record.importSourceRef.isNone

def admitThread (now : Timestamp) (name : HostThreadId) (record : StoredThreadRecordV1) :
    StoreCommand Unit := do
  if discardable record then
    fileStep fun disk => { disk with threads := disk.threads.delete name }
    fileStep fun disk => { disk with backups := disk.backups.delete name }
    fileStep fun disk => { disk with metadata := disk.metadata.delete record.hostThreadId }
  else
    let keep (record : StoredThreadRecordV1) : StoreCommand Unit :=
      modifyStore fun store =>
        { store with records := store.records.set record.hostThreadId record }
    match ← readMetadata now record.hostThreadId with
    | some metadata => keep (withThreadMetadata record metadata)
    | none =>
      -- Older builds wrote metadata inline.
      if (threadMetadataOf record).isSome then
        writeMetadataFile now record.hostThreadId (threadMetadataOf record)
        replaceFile name record false
      keep record

/-- The Thread loop; the result is `pendingQuarantines`. -/
def loadThreads (now : Timestamp) : List HostThreadId → StoreCommand (List HostThreadId)
  | [] => pure []
  | name :: rest => do
    match ← recoverThread now name with
    | .ok record =>
      admitThread now name record
      loadThreads now rest
    | .error archived =>
      let pending ← loadThreads now rest
      return if archived then pending else name :: pending

/-- Metadata files of Threads that neither loaded nor wait for their quarantine. -/
def removeOrphanMetadata (pending : List HostThreadId) : List HostThreadId → StoreCommand Unit
  | [] => pure ()
  | name :: rest => do
    let store ← readStore
    if !store.records.has name && name ∉ pending then
      try fileStep fun disk => { disk with metadata := disk.metadata.delete name }
      catch _ => pure ()
    removeOrphanMetadata pending rest

/-- The parse of one delegation file and its file name check. -/
def readDelegation (name : HostThreadId) :
    Option (FileContent StoredDelegationRecordV1) → Except StoreError StoredDelegationRecordV1
  | none | some (.text _) => .error .system
  | some (.json value) =>
    if !storedDelegationRecordV1Schema value then .error (.zod [])
    else if value.delegationId ≠ name then .error .system
    else .ok value

def loadDelegations (now : Timestamp) : List HostThreadId → StoreCommand Unit
  | [] => pure ()
  | name :: rest => do
    try
      fileStep id -- readFile
      let disk ← readDisk
      let parsed ← Command.lift (readDelegation name (disk.delegations.get? name))
      modifyStore fun store =>
        { store with delegations := store.delegations.set parsed.delegationId parsed }
    catch _ =>
      try fileStep fun disk =>
          match disk.delegations.get? name with
          | none => disk
          | some content =>
            { disk with
              delegations := disk.delegations.delete name
              quarantine := disk.quarantine.set ⟨name, now, .invalidDelegation⟩ (.delegation content) }
      catch _ => pure ()
    loadDelegations now rest

/-- A single-file list: empty when the file is missing, quarantined when it does not parse. -/
def loadSideFile {α : Type} (parse : List α → Option (List α))
    (file : Disk → Option (FileContent (List α))) (archive : FileContent (List α) → Disk → Disk) :
    StoreCommand (List α) :=
  tryCatch (do
    fileStep id -- readFile
    let disk ← readDisk
    match file disk with
    | none => pure []
    | some (.text _) => throw .system
    | some (.json value) =>
      match parse value with
      | none => throw (.zod [])
      | some parsed => pure parsed) fun _ => do
  try fileStep fun disk => match file disk with
      | none => disk
      | some content => archive content disk
  catch _ => pure ()
  return []

def readSectionPlacementsFile (now : Timestamp) : StoreCommand (List StoredSectionPlacementV1) :=
  loadSideFile parseSectionPlacements (·.sectionPlacements) fun content disk =>
    { disk with
      sectionPlacements := none
      quarantine := disk.quarantine.set ⟨"section-placements", now, .invalid⟩ (.sectionPlacements content) }

def readSupersededSessionsFile (now : Timestamp) : StoreCommand (List StoredSupersededSessionV1) :=
  loadSideFile parseSupersededSessions (·.supersededSessions) fun content disk =>
    { disk with
      supersededSessions := none
      quarantine := disk.quarantine.set ⟨"superseded-sessions", now, .invalid⟩ (.supersededSessions content) }

/-- The body of `initialize` under the lock. -/
def load (order : DirectoryOrder) (now : Timestamp) : StoreCommand Unit := do
  fileStep id -- cleanupResidue
  fileStep id -- readdir
  let disk ← readDisk
  let pending ← loadThreads now (order.arrange disk.threads.keys)
  fileStep id -- readdir
  let disk ← readDisk
  removeOrphanMetadata pending (order.arrange disk.metadata.keys)
  fileStep id -- readdir
  let disk ← readDisk
  loadDelegations now (order.arrange disk.delegations.keys)
  let sectionPlacements ← readSectionPlacementsFile now
  modifyStore fun store => { store with sectionPlacements }
  let supersededSessions ← readSupersededSessionsFile now
  modifyStore fun store => { store with supersededSessions }
  rebuild
  modifyStore fun store => { store with initialized := true }

/-- `initialize` -/
def initializeStore (order : DirectoryOrder) (now : Timestamp) : StoreCommand Unit := do
  let store ← readStore
  if store.initialized then pure ()
  else
    fileStep id -- mkdir
    try load order now
    catch error =>
      modifyStore fun store =>
        { store with
          records := .empty, delegations := .empty, sectionPlacements := [],
          supersededSessions := [] }
      rebuild
      modifyStore fun store => { store with initialized := false }
      throw error

end CodexHost.Source.MappingStore
