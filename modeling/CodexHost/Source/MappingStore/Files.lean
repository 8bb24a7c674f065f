import CodexHost.Foundation.Command
import CodexHost.Source.MappingStore.Indexes

/-!
# Files of the store and their atomic replacement

`packages/mapping-store/src/mapping-store.ts:1207-1335`: `#replaceFile`,
`#writeMetadataFile`, `#readMetadata`, `#readRecord`. A directory maps the stem of each
`<stem>.json` to what the file holds: the JSON text of a value of the expected shape, or
any other text. A temporary file has a fresh random name that no other step reads, so
writing it is a step that can fail but changes no named file. Every awaited file
operation is one `ioStep`; a failing copy may leave any text in the backup.
-/
namespace CodexHost.Source.MappingStore
open Foundation Source.SharedContracts

inductive FileContent (α : Type) where
  | json (value : α)
  | text (content : String)
  deriving DecidableEq, Repr

/-- `.invalid`, `.invalid.metadata`, `.invalid-metadata` and `.invalid-delegation` -/
inductive QuarantineKind where
  | invalid | metadataCopy | invalidMetadata | invalidDelegation
  deriving DecidableEq, Repr

structure QuarantineName where
  stem : String
  time : Timestamp
  kind : QuarantineKind
  deriving DecidableEq, Repr

inductive QuarantinedFile where
  | thread (content : FileContent StoredThreadRecordV1)
  | metadata (content : FileContent StoredThreadMetadataV1)
  | delegation (content : FileContent StoredDelegationRecordV1)
  | sectionPlacements (content : FileContent (List StoredSectionPlacementV1))
  | supersededSessions (content : FileContent (List StoredSupersededSessionV1))
  deriving DecidableEq

structure Disk where
  threads : OrderedMap HostThreadId (FileContent StoredThreadRecordV1)
  backups : OrderedMap HostThreadId (FileContent StoredThreadRecordV1)
  metadata : OrderedMap HostThreadId (FileContent StoredThreadMetadataV1)
  delegations : OrderedMap HostThreadId (FileContent StoredDelegationRecordV1)
  quarantine : OrderedMap QuarantineName QuarantinedFile
  sectionPlacements : Option (FileContent (List StoredSectionPlacementV1))
  supersededSessions : Option (FileContent (List StoredSupersededSessionV1))
  deriving DecidableEq

def Disk.blank : Disk := ⟨.empty, .empty, .empty, .empty, .empty, none, none⟩

structure StoreWorld where
  disk : Disk
  store : StoreState
  deriving DecidableEq

/-- What an interrupted copy leaves in its target: the old file, or some content. -/
abbrev Residue := Option (FileContent StoredThreadRecordV1)

abbrev World := Fused Residue StoreWorld

abbrev StoreCommand := Command World StoreError

/-- A file operation that changes nothing when it fails. -/
def fileStep (effect : Disk → Disk) : StoreCommand Unit :=
  Command.ioStep .system (fun w => { w with disk := effect w.disk }) (fun _ w => w)

/-- `copyFile(target, backup)`: a failing copy leaves its residue behind. -/
def copyToBackup (target backup : HostThreadId) : StoreCommand Unit :=
  let copy (content : Option (FileContent StoredThreadRecordV1)) (w : StoreWorld) : StoreWorld :=
    match content with
    | none => w
    | some content =>
      { w with disk := { w.disk with backups := w.disk.backups.set backup content } }
  Command.ioStep .system (fun w => copy (w.disk.threads.get? target) w) copy

def readDisk : StoreCommand Disk := do
  let w ← get
  return w.state.disk

def readStore : StoreCommand StoreState := do
  let w ← get
  return w.state.store

def modifyStore (f : StoreState → StoreState) : StoreCommand Unit :=
  modify fun w => { w with state := { w.state with store := f w.state.store } }

/-- A schema error is thrown as it is; a validation result carries the store's error. -/
def parseRecord (record : StoredThreadRecordV1) : StoreCommand StoredThreadRecordV1 :=
  Command.lift ((storedThreadRecordV1Schema record).mapError .zod)

/-- A fresh temporary file, up to its rename. -/
def writeTemporaryFile : StoreCommand Unit := do
  fileStep id -- open
  fileStep id -- writeFile
  fileStep id -- sync
  fileStep id -- close

/-- The current file, where there is one, becomes the backup. -/
def backUp (target backup : HostThreadId) : StoreCommand Unit := do
  fileStep id -- stat
  let disk ← readDisk
  if disk.threads.has target then copyToBackup target backup

def replaceFile (target : HostThreadId) (record : StoredThreadRecordV1) (preserveBackup : Bool) :
    StoreCommand Unit := do
  try
    fileStep id -- beforeReplace
    writeTemporaryFile
    if preserveBackup then backUp target record.hostThreadId
    fileStep fun disk =>
      { disk with threads := disk.threads.set target (.json (withoutThreadMetadata record)) }
  catch error =>
    throw (match error with
      | .mappingStore .. => error
      | _ => .mappingStore .ioError "Mapping Store atomic replacement failed")

/-- `storedThreadMetadataV1Schema.parse(JSON.parse(text))` and the Thread ID check. -/
def parseMetadata (hostThreadId : HostThreadId) :
    FileContent StoredThreadMetadataV1 → Option StoredThreadMetadataV1
  | .text _ => none
  | .json value => (storedThreadMetadataV1Schema value).filter (·.hostThreadId = hostThreadId)

def readMetadata (now : Timestamp) (hostThreadId : HostThreadId) :
    StoreCommand (Option StoredThreadMetadataV1) := do
  fileStep id -- readFile; a missing file is not a failure
  let disk ← readDisk
  match disk.metadata.get? hostThreadId with
  | none => return none
  | some content =>
    match parseMetadata hostThreadId content with
    | some parsed => return some parsed
    | none =>
      try fileStep fun disk =>
          { disk with
            metadata := disk.metadata.delete hostThreadId
            quarantine := disk.quarantine.set ⟨hostThreadId, now, .invalidMetadata⟩ (.metadata content) }
      catch _ => pure ()
      return none

def writeMetadataFile (now : Timestamp) (hostThreadId : HostThreadId)
    (metadata : Option StoredThreadMetadataV1) : StoreCommand Unit := do
  try
    let existing ← readMetadata now hostThreadId
    let retained := (existing.map (·.unknown)).getD []
    if metadata = none ∧ retained = [] then
      fileStep fun disk => { disk with metadata := disk.metadata.delete hostThreadId }
    else
      let fields := (metadata.map (·.toStoredThreadMetadataFields)).getD noThreadMetadata
      writeTemporaryFile
      fileStep fun disk =>
        { disk with metadata := disk.metadata.set hostThreadId (.json ⟨fields, hostThreadId, retained⟩) }
  catch _ => throw (.mappingStore .ioError "Thread metadata atomic replacement failed")

/-- The parse and the file name check of `#readRecord`. -/
def readRecord (hostThreadId : HostThreadId) :
    Option (FileContent StoredThreadRecordV1) → Except StoreError StoredThreadRecordV1
  | none | some (.text _) => .error .system
  | some (.json value) =>
    match storedThreadRecordV1Schema value with
    | .error _ => .error (.mappingStore .invalidRecord "Mapping Store record is invalid")
    | .ok parsed =>
      if parsed.hostThreadId = hostThreadId then .ok parsed
      else .error (.mappingStore .invalidRecord "Mapping Store filename does not match Thread ID")

end CodexHost.Source.MappingStore
