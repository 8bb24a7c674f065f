import CodexHost.Foundation.OrderedMap
import CodexHost.Source.MappingStore.SideFiles
import CodexHost.Source.ProtocolCore.ThreadManagement

/-!
# External rows of a Thread list

`packages/host-runtime/src/external-thread-list.ts`: which stored Threads match a list query,
the Session tree each belongs to, their order, and the page after an anchor. What the row of
a stored Thread shows beyond ID and timestamps is a function of the record, its Session,
its running state and its placement, and is kept as those.
-/
namespace CodexHost.Source.HostRuntime
open Foundation Source.SharedContracts Source.MappingStore
open Source.ProtocolCore

/-- What a row holds beyond its ID and timestamps. -/
inductive ThreadRowRest where
  /-- A row that another list gave, with the JSON text of its other fields. -/
  | given (text : String)
  /-- `externalThreadValue` of a record; a Thread that is not loaded has no running state. -/
  | projected (record : StoredThreadRecordV1) (sessionId : String) (running : Option Bool)
      (placement : Option StoredSectionPlacementV1)
  deriving DecidableEq

abbrev Thread := ThreadRow ThreadRowRest

inductive ThreadListSource where
  | external | official
  deriving DecidableEq, Repr

structure ThreadListEntry where
  source : ThreadListSource
  thread : Thread
  timestamp : Int
  deriving DecidableEq

structure ExternalThreadListPage where
  data : List ThreadListEntry
  hasMore : Bool

/-- `Math.floor(Date.parse(value) / 1_000)` -/
def unixTimestamp (value : Timestamp) : Int := value / 1000

def threadListTimestamp (thread : Thread) (sortKey : ThreadListSortKey) : Except String Int :=
  let field : JsonNumberField :=
    match sortKey with
    | .createdAt => thread.createdAt
    | .updatedAt => thread.updatedAt
    | _ => if thread.recencyAt = .absent then thread.updatedAt else thread.recencyAt
  let invalid := "Thread list row has no valid " ++ sortKey.text ++ " timestamp"
  match field with
  | .integer value => if value.natAbs ≤ maxSafeInteger then .ok value else .error invalid
  | _ => .error invalid

def compareTimestamp (left right : Int) (direction : ThreadListSortDirection) : Int :=
  if left = right then 0
  else match direction with
    | .asc => left - right
    | .desc => right - left

/-- `left === right ? 0 : left < right ? -1 : 1` -/
def compareText (left right : String) : Int :=
  if left = right then 0 else if EcmaString.lessThan left right then -1 else 1

def compareThreadListEntries (left right : ThreadListEntry) (direction : ThreadListSortDirection) : Int :=
  let byTimestamp := compareTimestamp left.timestamp right.timestamp direction
  if byTimestamp ≠ 0 then byTimestamp
  else if left.source ≠ right.source then (if left.source = .external then -1 else 1)
  else if left.source = .official then 0
  else compareText left.thread.id right.thread.id

def compareExternalAnchor (entry : ThreadListEntry) (anchor : ThreadListExternalAnchor)
    (direction : ThreadListSortDirection) : Int :=
  let byTimestamp := compareTimestamp entry.timestamp anchor.timestamp direction
  if byTimestamp ≠ 0 then byTimestamp else compareText entry.thread.id anchor.threadId

/-- `externalAnchor` of an External entry. -/
def externalAnchor (entry : ThreadListEntry) : ThreadListExternalAnchor :=
  ⟨entry.timestamp, entry.thread.id⟩

/-- `new Map(records.map((record) => [record.hostThreadId, record]))` -/
def recordsById (records : List StoredThreadRecordV1) : OrderedMap String StoredThreadRecordV1 :=
  OrderedMap.empty.setAll (records.map fun record => (record.hostThreadId, record))

/-- The loop over the owners of a subagent. A turn of the loop adds an owner, of which there
are no more than records. -/
def belongsToOwners (byId : OrderedMap String StoredThreadRecordV1) :
    Nat → List String → StoredThreadRecordV1 → Bool
  | 0, _, _ => false
  | turns + 1, owners, current =>
    match current.subagent with
    | none => true
    | some subagent =>
      if current.hostThreadId ∈ owners then false
      else match byId.get? subagent.parentHostThreadId with
        | none => false
        | some parent =>
          if parent.state ≠ .ready ∨ parent.harnessId ≠ current.harnessId ∨
              parent.nativeSessionRef.map (·.nativeSessionId) ≠
                current.nativeSessionRef.map (·.nativeSessionId) then false
          else belongsToOwners byId turns (owners ++ [current.hostThreadId]) parent

/-- The loop to the ancestor: the parent at which it ends. -/
def lastParent (byId : OrderedMap String StoredThreadRecordV1) (ancestorThreadId : String) :
    Nat → List String → Option String → Option String
  | 0, _, parentId => parentId
  | turns + 1, visited, parentId =>
    match parentId.filter (· ≠ "") with
    | none => parentId
    | some parent =>
      if parent = ancestorThreadId ∨ parent ∈ visited then some parent
      else lastParent byId ancestorThreadId turns (visited ++ [parent])
        ((byId.get? parent).bind fun record => record.subagent.map (·.parentHostThreadId))

/-- `String.prototype.includes` -/
def includesText (text part : String) : Bool := decide (part.toList <:+: text.toList)

def includesExternalRecord (toLowerCase : String → String) (record : StoredThreadRecordV1)
    (query : DecodedThreadListRequest) (byId : OrderedMap String StoredThreadRecordV1)
    (sectionId : Option String) : Bool :=
  let parent := record.subagent.map (·.parentHostThreadId)
  let sourceKind := if record.subagent.isSome then "subAgentThreadSpawn" else "vscode"
  let scopedToThread := query.parentThreadId.isSome || query.ancestorThreadId.isSome
  record.state = .ready && record.nativeSessionRef.isSome &&
  belongsToOwners byId (byId.entries.length + 1) [] record &&
  !(record.subagent.isSome && !scopedToThread && !(query.sourceKinds.any fun kinds =>
    kinds.any fun kind => kind = "subAgent" || kind = "subAgentThreadSpawn")) &&
  query.parentThreadId.all (fun wanted => parent = some wanted) &&
  query.ancestorThreadId.all (fun ancestor =>
    record.hostThreadId ≠ ancestor &&
      lastParent byId ancestor (byId.entries.length + 1) [record.hostThreadId] parent = some ancestor) &&
  record.archived = query.archived &&
  query.projectId.all (fun project => record.projectId = project) &&
  query.cwd.all (fun cwds => record.cwd ∈ cwds) &&
  query.modelProviders.all (fun providers => providers = [] || "codexhost" ∈ providers) &&
  query.sourceKinds.all (fun kinds =>
    kinds = [] || sourceKind ∈ kinds || (record.subagent.isSome && "subAgent" ∈ kinds)) &&
  query.searchTerm.all (fun term => includesText (toLowerCase record.title) (toLowerCase term)) &&
  query.isPinned ≠ some true &&
  query.sectionId.all (fun wanted => wanted = sectionId)

/-- The record that `resolveExternalSessionTreeIds` goes on to. -/
def sessionTreeSource (byId : OrderedMap String StoredThreadRecordV1)
    (current : StoredThreadRecordV1) : Option StoredThreadRecordV1 :=
  let sourceId := (current.subagent.map (·.parentHostThreadId)).or (current.forkSource.map (·.hostThreadId))
  (sourceId.filter (· ≠ "")).bind byId.get?

/-- The loop of `resolve`: the path from the record and the root it leads to. A turn of the
loop visits another record, so it runs out of records before it runs out of turns. -/
def sessionTreePath (byId : OrderedMap String StoredThreadRecordV1) (resolved : OrderedMap String String) :
    Nat → List StoredThreadRecordV1 → StoredThreadRecordV1 →
    Except String (List StoredThreadRecordV1 × String)
  | 0, _, _ => .error "External Thread Fork tree contains a cycle"
  | turns + 1, path, current =>
    match resolved.get? current.hostThreadId with
    | some known => .ok (path, known)
    | none =>
      if current.hostThreadId ∈ path.map (·.hostThreadId) then
        .error "External Thread Fork tree contains a cycle"
      else match sessionTreeSource byId current with
        | none => .ok (path ++ [current], current.hostThreadId)
        | some source => sessionTreePath byId resolved turns (path ++ [current]) source

/-- `resolve(start)`, for its entries in `resolved`. -/
def resolveSessionTree (byId : OrderedMap String StoredThreadRecordV1)
    (resolved : OrderedMap String String) (start : StoredThreadRecordV1) :
    Except String (OrderedMap String String) := do
  let (path, root) ← sessionTreePath byId resolved (byId.entries.length + 1) [] start
  return resolved.setAll (path.map fun record => (record.hostThreadId, root))

def resolveExternalSessionTreeIds (records : List StoredThreadRecordV1) :
    Except String (OrderedMap String String) :=
  records.foldlM (resolveSessionTree (recordsById records)) OrderedMap.empty

/-- What a listing is given beside its query and cursor. -/
structure ExternalThreadListInput where
  records : List StoredThreadRecordV1
  /-- Already filtered by the owning Host. -/
  sharedThreads : List Thread
  /-- Whether a loaded Thread is running. -/
  runtimeFor : String → Option Bool
  placementOf : String → Option StoredSectionPlacementV1
  /-- `String.prototype.toLowerCase` -/
  toLowerCase : String → String

/-- The row of a stored Thread. Its ID is not empty by the schema of the record. -/
def externalThreadValue (record : StoredThreadRecordV1) (sessionId : String)
    (running : Option Bool) (placement : Option StoredSectionPlacementV1)
    (stable : record.hostThreadId ≠ "") : Thread :=
  { id := record.hostThreadId
    createdAt := .integer (unixTimestamp record.createdAt)
    updatedAt := .integer (unixTimestamp record.updatedAt)
    recencyAt := .integer (unixTimestamp record.updatedAt)
    rest := .projected record sessionId running placement
    stable := stable }

def externalThreadListEntry (input : ExternalThreadListInput) (query : DecodedThreadListRequest)
    (sessionIds : OrderedMap String String) (record : StoredThreadRecordV1) :
    Except String ThreadListEntry :=
  match sessionIds.get? record.hostThreadId with
  | none => .error "External Thread Session tree could not be resolved"
  | some sessionId =>
    if stable : record.hostThreadId ≠ "" then
      .ok { source := .external
            thread := externalThreadValue record sessionId (input.runtimeFor record.hostThreadId)
              (input.placementOf record.hostThreadId) stable
            timestamp := unixTimestamp
              (if query.sortKey = .createdAt then record.createdAt else record.updatedAt) }
    else .error "Thread list row has no stable ID"

def matchesQuery (input : ExternalThreadListInput) (query : DecodedThreadListRequest)
    (record : StoredThreadRecordV1) : Bool :=
  includesExternalRecord input.toLowerCase record query (recordsById input.records)
    ((input.placementOf record.hostThreadId).map (·.section.id))

/-- External Threads that match the filters of the query, unsorted. -/
def externalThreadListEntries (input : ExternalThreadListInput)
    (query : DecodedThreadListRequest) : Except String (List ThreadListEntry) := do
  let sessionIds ← resolveExternalSessionTreeIds input.records
  (input.records.filter (matchesQuery input query)).mapM (externalThreadListEntry input query sessionIds)

def sharedThreadListEntry (sortKey : ThreadListSortKey) (thread : Thread) :
    Except String ThreadListEntry := do
  return ⟨.external, thread, ← threadListTimestamp thread sortKey⟩

/-- The External rows of the query, local and shared. -/
def matchingExternalThreads (input : ExternalThreadListInput) (query : DecodedThreadListRequest) :
    Except String (List ThreadListEntry) := do
  let shared ← input.sharedThreads.mapM (sharedThreadListEntry query.sortKey)
  let sharedIds := shared.map (·.thread.id)
  let «local» ← externalThreadListEntries input query
  return «local».filter (fun entry => entry.thread.id ∉ sharedIds) ++ shared

/-- `entries.sort` with `compareThreadListEntries`; the sort is stable. -/
def sortThreadListEntries (direction : ThreadListSortDirection) (entries : List ThreadListEntry) :
    List ThreadListEntry :=
  entries.insertionSort fun left right => compareThreadListEntries left right direction ≤ 0

def isAfterAnchor (anchor : Option ThreadListExternalAnchor) (direction : ThreadListSortDirection)
    (entry : ThreadListEntry) : Bool :=
  anchor.all fun anchor => 0 < compareExternalAnchor entry anchor direction

/-- `listExternalThreadMetadata` with an anchor and the limit of the query. -/
def listExternalThreadMetadata (input : ExternalThreadListInput)
    (query : DecodedThreadListRequest) (anchor : Option ThreadListExternalAnchor) :
    Except String ExternalThreadListPage :=
  if !query.supportsExternal || query.sortKey = .sectionPosition then .ok ⟨[], false⟩
  else do
    let matching ← matchingExternalThreads input query
    let entries := (sortThreadListEntries query.sortDirection matching).filter
      (isAfterAnchor anchor query.sortDirection)
    return ⟨entries.take query.limit, query.limit < entries.length⟩

def officialThreadListEntry (sortKey : ThreadListSortKey) (thread : Thread) :
    Except String ThreadListEntry := do
  return ⟨.official, thread, ← threadListTimestamp thread sortKey⟩

end CodexHost.Source.HostRuntime
