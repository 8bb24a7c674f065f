import CodexHost.Source.HostRuntime.ExternalThreadList

/-!
# Aggregated Thread list

`packages/host-runtime/src/thread-list-aggregator.ts:24-251`: one page of the merge of the
External rows with the rows of the official list, which is read page by page, and the
cursors that continue it. A call may make 256 official requests; `budget` is the number it
has left.
-/
namespace CodexHost.Source.HostRuntime
open Foundation Source.ProtocolCore

def MAX_OFFICIAL_PAGE_REQUESTS : Nat := 256

def OFFICIAL_TIE_ANCHOR : String := "\uffff"

abbrev OfficialPage := OfficialThreadListPage ThreadRowRest

structure AggregatedThreadListPage where
  data : List Thread
  nextCursor : Option HostThreadListCursor
  backwardsCursor : Option HostThreadListCursor
  deriving DecidableEq

def opposite : ThreadListSortDirection → ThreadListSortDirection
  | .asc => .desc
  | .desc => .asc

/-- `officialParams`: the parameters of the query with this cursor and limit. -/
structure OfficialThreadListParams where
  query : DecodedThreadListRequest
  cursor : Option String
  limit : Nat
  deriving DecidableEq

structure AggregateThreadListInput extends ExternalThreadListInput where
  query : DecodedThreadListRequest
  requestOfficialPage : OfficialThreadListParams → Except String OfficialPage

/-- The variables of `aggregateThreadList` about the official list. -/
structure OfficialReader where
  officialCursor : Option String
  officialDone : Bool
  officialBatchStart : Option String
  officialBatch : Option OfficialPage
  officialEntries : List ThreadListEntry
  officialIndex : Nat
  firstOfficialBackwardsCursor : Option (Option String)

namespace OfficialReader

/-- Passes over the rows of owned Threads in the batch. -/
def passOwned (owned : String → Bool) (reader : OfficialReader) : OfficialReader :=
  { reader with
    officialIndex := reader.officialIndex + ((reader.officialEntries.drop reader.officialIndex).takeWhile
        fun entry => owned entry.thread.id).length }

/-- What follows a batch whose rows are all used. -/
def finishBatch (reader : OfficialReader) : OfficialReader :=
  match reader.officialBatch with
  | none => reader
  | some batch =>
    { reader with
      officialCursor := batch.nextCursor
      officialDone := batch.nextCursor.isNone
      officialBatch := none
      officialEntries := []
      officialIndex := 0 }

/-- The batch that a request at the cursor brought. -/
def startBatch (reader : OfficialReader) (page : OfficialPage) (entries : List ThreadListEntry) :
    OfficialReader :=
  { reader with
    officialBatchStart := reader.officialCursor
    firstOfficialBackwardsCursor :=
      some (reader.firstOfficialBackwardsCursor.getD page.backwardsCursor)
    officialBatch := some page
    officialEntries := entries
    officialIndex := 0 }

/-- What follows an empty batch. -/
def skipEmptyBatch (reader : OfficialReader) (page : OfficialPage) : OfficialReader :=
  if page.nextCursor = none ∨ page.nextCursor = reader.officialCursor then
    { reader with officialDone := true }
  else { reader with officialCursor := page.nextCursor, officialBatch := none }

end OfficialReader

def requestOfficial (input : AggregateThreadListInput) (cursor : Option String) (limit : Nat) :
    Nat → Except String (Nat × OfficialPage)
  | 0 => .error "Official thread/list pagination exceeded its request bound"
  | budget + 1 => do return (budget, ← input.requestOfficialPage ⟨input.query, cursor, limit⟩)

/-- `ensureOfficial` together with the loop around it over the rows of owned Threads: the
next official row that is not of an External Thread. Every turn but the last makes a
request. -/
def ensureOfficial (input : AggregateThreadListInput) (owned : String → Bool) :
    Nat → OfficialReader → Except String (Nat × OfficialReader × Option ThreadListEntry)
  | budget, before =>
    let reader := before.passOwned owned
    if reader.officialDone then .ok (budget, reader, none)
    else if reader.officialIndex < reader.officialEntries.length then
      .ok (budget, reader, reader.officialEntries[reader.officialIndex]?)
    else
      let finished := reader.finishBatch
      if finished.officialDone then .ok (budget, finished, none)
      else match budget with
        | 0 => .error "Official thread/list pagination exceeded its request bound"
        | budget + 1 => do
          let page ← input.requestOfficialPage ⟨input.query, finished.officialCursor, max 1 input.query.limit⟩
          let entries ← page.data.mapM (officialThreadListEntry input.query.sortKey)
          let started := finished.startBatch page entries
          ensureOfficial input owned budget (if entries = [] then started.skipEmptyBatch page else started)

/-- The variables of the loop that fills a page. `external` are the rows of the External page
from `externalIndex` on. -/
structure PageFilling where
  budget : Nat
  reader : OfficialReader
  external : List ThreadListEntry
  output : List ThreadListEntry
  lastExternalAnchor : Option ThreadListExternalAnchor

def PageFilling.pushExternal (state : PageFilling) (entry : ThreadListEntry) : PageFilling :=
  { state with
    external := state.external.tail
    output := state.output ++ [entry]
    lastExternalAnchor := some (externalAnchor entry) }

def PageFilling.pushOfficial (state : PageFilling) (entry : ThreadListEntry) : PageFilling :=
  { state with
    reader := { state.reader with officialIndex := state.reader.officialIndex + 1 }
    output := state.output ++ [entry] }

/-- Pushes the row that comes first; none when neither source has one. -/
def PageFilling.pushFirst (state : PageFilling) (direction : ThreadListSortDirection)
    (official : Option ThreadListEntry) : Option PageFilling :=
  match state.external.head?, official with
  | none, none => none
  | some external, none => some (state.pushExternal external)
  | none, some official => some (state.pushOfficial official)
  | some external, some official =>
    some (if compareThreadListEntries external official direction ≤ 0 then
      state.pushExternal external
    else state.pushOfficial official)

/-- The loop of `aggregateThreadList`, for a page with room for this many rows. -/
def fillPage (input : AggregateThreadListInput) (owned : String → Bool) :
    Nat → PageFilling → Except String PageFilling
  | 0, state => .ok state
  | room + 1, before => do
    let (budget, reader, official) ← ensureOfficial input owned before.budget before.reader
    let state := { before with budget, reader }
    match state.pushFirst input.query.sortDirection official with
    | none => .ok state
    | some state => fillPage input owned room state

/-- The official part of the next cursor: where to resume, and whether the list is done. -/
def nextOfficial (input : AggregateThreadListInput) (budget : Nat) (reader : OfficialReader) :
    Except String (Option String × Bool) :=
  match reader.officialBatch with
  | none => .ok (reader.officialCursor, reader.officialDone)
  | some batch =>
    if reader.officialDone then .ok (reader.officialCursor, reader.officialDone)
    else if reader.officialIndex = 0 then .ok (reader.officialBatchStart, false)
    else if reader.officialIndex < reader.officialEntries.length then do
      let (_, exact) ← requestOfficial input reader.officialBatchStart reader.officialIndex budget
      if exact.data.length ≠ reader.officialIndex ∨ exact.nextCursor = none then
        .error "Official thread/list did not return an exact consumed prefix cursor"
      else .ok (exact.nextCursor, false)
    else .ok (batch.nextCursor, batch.nextCursor.isNone)

/-- The cursor at which a query without one starts. -/
def startCursor (query : DecodedThreadListRequest) : HostThreadListCursor :=
  { queryFingerprint := query.queryFingerprint
    sortDirection := query.sortDirection
    officialCursor := none
    officialDone := false
    externalAnchor := none
    externalDone := false }

/-- `externalIds.has` -/
def isExternalId (input : ExternalThreadListInput) (id : String) : Bool :=
  input.records.any (·.hostThreadId = id) || input.sharedThreads.any (·.id = id)

def backwardsAnchor (first : ThreadListEntry) : ThreadListExternalAnchor :=
  ⟨first.timestamp, if first.source = .external then first.thread.id else OFFICIAL_TIE_ANCHOR⟩

/-- The page that a filled state gives, with the rows of the External page that are left. -/
def pageOf (query : DecodedThreadListRequest) (start : HostThreadListCursor)
    (externalPage : ExternalThreadListPage) (state : PageFilling)
    (nextOfficialCursor : Option String) (nextOfficialDone : Bool) : AggregatedThreadListPage :=
  let externalRemaining := !state.external.isEmpty || externalPage.hasMore ||
    (query.limit = 0 && !start.externalDone)
  let officialRemaining := !nextOfficialDone
  { data := state.output.map (·.thread)
    nextCursor :=
      if externalRemaining || officialRemaining then
        some { queryFingerprint := query.queryFingerprint
               sortDirection := query.sortDirection
               officialCursor := nextOfficialCursor
               officialDone := nextOfficialDone
               externalAnchor := state.lastExternalAnchor
               externalDone := !externalRemaining }
      else none
    backwardsCursor := state.output.head?.map fun first =>
      { queryFingerprint := query.queryFingerprint
        sortDirection := opposite query.sortDirection
        officialCursor := state.reader.firstOfficialBackwardsCursor.join
        officialDone := state.reader.firstOfficialBackwardsCursor.join.isNone
        externalAnchor := some (backwardsAnchor first)
        externalDone := false } }

def aggregateThreadList (input : AggregateThreadListInput) : Except String AggregatedThreadListPage := do
  let query := input.query
  if !query.supportsExternal || query.sortKey = .sectionPosition then
    throw "External aggregation is not supported for query"
  let start := query.cursor.getD (startCursor query)
  let externalPage ←
    if start.externalDone then pure ⟨[], false⟩
    else listExternalThreadMetadata input.toExternalThreadListInput query start.externalAnchor
  let state ← fillPage input (isExternalId input.toExternalThreadListInput) query.limit
    { budget := MAX_OFFICIAL_PAGE_REQUESTS
      reader :=
        { officialCursor := start.officialCursor
          officialDone := start.officialDone
          officialBatchStart := start.officialCursor
          officialBatch := none
          officialEntries := []
          officialIndex := 0
          firstOfficialBackwardsCursor := none }
      external := externalPage.data
      output := []
      lastExternalAnchor := start.externalAnchor }
  let (nextOfficialCursor, nextOfficialDone) ← nextOfficial input state.budget state.reader
  return pageOf query start externalPage state nextOfficialCursor nextOfficialDone

/-- A `thread/list` request of the query with a cursor, a direction and a limit. -/
def listThreads (input : AggregateThreadListInput) (direction : ThreadListSortDirection)
    (cursor : Option HostThreadListCursor) (limit : Nat) :
    Except String AggregatedThreadListPage := do
  let query := { input.query with limit, sortDirection := direction, cursor := none }
  let decoded ← cursor.mapM (decodeHostThreadListCursor query)
  aggregateThreadList { input with query := { query with cursor := decoded } }

end CodexHost.Source.HostRuntime
