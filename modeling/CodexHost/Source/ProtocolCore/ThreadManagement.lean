import Mathlib

/-!
# Thread list requests and cursors

`packages/protocol-core/src/thread-management.ts:43-108,240-268`: a decoded `thread/list`
request, the Host cursor that continues one, and a page of the official list. A cursor is
passed on as its decoded payload; its text is JSON in base64url.
-/
namespace CodexHost.Source.ProtocolCore

inductive ThreadListSortDirection where
  | asc | desc
  deriving DecidableEq, Repr

/-- `OfficialThreadListSortKey` -/
inductive ThreadListSortKey where
  | createdAt | updatedAt | recencyAt | sectionPosition
  deriving DecidableEq, Repr

def ThreadListSortKey.text : ThreadListSortKey → String
  | .createdAt => "created_at"
  | .updatedAt => "updated_at"
  | .recencyAt => "recency_at"
  | .sectionPosition => "section_position"

structure ThreadListExternalAnchor where
  timestamp : Int
  threadId : String
  deriving DecidableEq, Repr

structure HostThreadListCursor where
  queryFingerprint : String
  sortDirection : ThreadListSortDirection
  officialCursor : Option String
  officialDone : Bool
  externalAnchor : Option ThreadListExternalAnchor
  externalDone : Bool
  deriving DecidableEq, Repr

structure DecodedThreadListRequest where
  archived : Bool
  cwd : Option (List String)
  isPinned : Option Bool
  limit : Nat
  modelProviders : Option (List String)
  parentThreadId : Option String
  ancestorThreadId : Option String
  /-- None includes every project; `some none` selects unassigned Threads. -/
  projectId : Option (Option String)
  searchTerm : Option String
  /-- None matches every section; `some none` matches unsectioned Threads. -/
  sectionId : Option (Option String)
  sortDirection : ThreadListSortDirection
  sortKey : ThreadListSortKey
  sourceKinds : Option (List String)
  queryFingerprint : String
  cursor : Option HostThreadListCursor
  supportsExternal : Bool
  deriving DecidableEq, Repr

/-- A field of a JSON object from which a number is read. -/
inductive JsonNumberField where
  | absent
  | integer (value : Int)
  | other
  deriving DecidableEq, Repr

/-- A Thread row with the fields that listing reads, and the rest of it. Every row has a
stable ID: `threadId` rejects one without. -/
structure ThreadRow (Rest : Type) where
  id : String
  createdAt : JsonNumberField
  updatedAt : JsonNumberField
  recencyAt : JsonNumberField
  rest : Rest
  stable : id ≠ ""
  deriving DecidableEq

structure OfficialThreadListPage (Rest : Type) where
  data : List (ThreadRow Rest)
  nextCursor : Option String
  backwardsCursor : Option String
  deriving DecidableEq

/-- The checks of `decodeHostThreadListCursor` against the query that the cursor continues. -/
def decodeHostThreadListCursor (query : DecodedThreadListRequest)
    (cursor : HostThreadListCursor) : Except String HostThreadListCursor :=
  if cursor.queryFingerprint ≠ query.queryFingerprint ∨ cursor.sortDirection ≠ query.sortDirection
  then .error "thread/list cursor does not match the current query"
  else .ok cursor

end CodexHost.Source.ProtocolCore
