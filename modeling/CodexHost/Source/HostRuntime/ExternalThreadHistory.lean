import CodexHost.Source.ProtocolCore.JsonObject
import CodexHost.Source.SharedContracts

/-!
# Pages of an External Thread's history

`packages/host-runtime/src/external-thread-history.ts:1-173`: the pages of the Turns of a Thread, in
both directions, and the cursor, which names an anchor and whether the page includes it. Turns and
requests are JSON objects.
-/
namespace CodexHost.Source.HostRuntime.ExternalThreadHistory
open Foundation Source.SharedContracts Source.ProtocolCore

def DEFAULT_PAGE_SIZE : Nat := 25

def MAX_PAGE_SIZE : Nat := 100

inductive SortDirection where
  | asc | desc
  deriving DecidableEq, Repr

inductive ItemsView where
  | notLoaded | summary | full
  deriving DecidableEq, Repr

structure Cursor where
  anchor : Utf16
  includeAnchor : Bool
  deriving DecidableEq, Repr

/-- An `ExternalHistoryRequestError`, or another error. -/
inductive HistoryError where
  | request (message : String)
  | other (message : String)
  deriving DecidableEq, Repr

structure ExternalHistoryPage where
  data : List JsonObject
  nextCursor : Option Utf16
  backwardsCursor : Option Utf16

def optionalText (value : Option JsonValue) (name : String) : Except HistoryError (Option Utf16) :=
  match value with
  | none | some .null => .ok none
  | some (.string text) => .ok (some text)
  | some _ => .error (.request s!"{name} must be text")

def pageSize (value : Option JsonValue) : Except HistoryError Nat :=
  match value with
  | none | some .null => .ok DEFAULT_PAGE_SIZE
  | some (.number (.integer value)) =>
    if 0 ≤ value ∧ value ≤ maxSafeInteger then .ok (min MAX_PAGE_SIZE (max 1 value.toNat))
    else .error (.request "limit must be a non-negative integer")
  | some _ => .error (.request "limit must be a non-negative integer")

def sortDirection (value : Option JsonValue) (fallback : SortDirection) : Except HistoryError SortDirection :=
  match value with
  | none | some .null => .ok fallback
  | some (.string text) =>
    if text = Utf16.ofString "asc" then .ok .asc
    else if text = Utf16.ofString "desc" then .ok .desc
    else .error (.request "sortDirection must be 'asc' or 'desc'")
  | some _ => .error (.request "sortDirection must be 'asc' or 'desc'")

def itemsView (value : Option JsonValue) : Except HistoryError ItemsView :=
  match value with
  | none | some .null => .ok .summary
  | some (.string text) =>
    if text = Utf16.ofString "notLoaded" then .ok .notLoaded
    else if text = Utf16.ofString "summary" then .ok .summary
    else if text = Utf16.ofString "full" then .ok .full
    else .error (.request "itemsView must be 'notLoaded', 'summary', or 'full'")
  | some _ => .error (.request "itemsView must be 'notLoaded', 'summary', or 'full'")

def serializeCursor (anchor : Utf16) (includeAnchor : Bool) : Utf16 :=
  Utf16.ofText (Json.write JsonNumber.format (.object [(Utf16.ofString "anchor", .string anchor),
      (Utf16.ofString "includeAnchor", .bool includeAnchor)]))

/-- The cursor that a parsed text is, if it is one. -/
def cursorOf : JsonValue → Option Cursor
  | .object members =>
    match JsonObject.get members "anchor", JsonObject.get members "includeAnchor" with
    | some (.string anchor), some (.bool includeAnchor) =>
      if anchor.length > 0 then some ⟨anchor, includeAnchor⟩ else none
    | _, _ => none
  | _ => none

def parseCursor (value : Option JsonValue) : Except HistoryError (Option Cursor) := do
  match ← optionalText value "cursor" with
  | none => return none
  | some text =>
    match (Json.parse JsonNumber.format text.text).bind cursorOf with
    | some cursor => return some cursor
    | none => throw (.request "cursor is invalid")

def id (value : JsonObject) (name : String) : Except HistoryError Utf16 :=
  match value.get "id" with
  | some (.string id) =>
    if id.length = 0 then .error (.other s!"External history {name} has no stable ID") else .ok id
  | _ => .error (.other s!"External history {name} has no stable ID")

def pageEntries {T : Type} (values : List T) (key : T → Except HistoryError Utf16) (limit : Nat) :
    Except HistoryError (List T × Option Utf16 × Option Utf16) := do
  let data := values.take limit
  let hasMore := limit < values.length
  let nextCursor ← match data.getLast? with
    | some last => if hasMore then some <$> (serializeCursor · false) <$> key last else pure none
    | none => pure none
  let backwardsCursor ← match data.head? with
    | some first => some <$> (serializeCursor · true) <$> key first
    | none => pure none
  return (data, nextCursor, backwardsCursor)

def findIndex (isMatch : JsonObject → Except HistoryError Bool) :
    List JsonObject → Except HistoryError (Option Nat)
  | [] => return none
  | turn :: rest => do
    if ← isMatch turn then return some 0
    else return (← findIndex isMatch rest).map (· + 1)

/-- `findLastIndex`, which starts at the end. -/
def findLastIndex (isMatch : JsonObject → Except HistoryError Bool) (turns : List JsonObject) :
    Except HistoryError (Option Nat) := do
  return (← findIndex isMatch turns.reverse).map fun index => turns.length - 1 - index

/-- The Turns from an index on: up to the end, or down to the start. -/
def turnsFrom (turns : List JsonObject) (direction : SortDirection) (start : Int) : List JsonObject :=
  match direction with
  | .asc => turns.drop start.toNat
  | .desc => (turns.take (start + 1).toNat).reverse

/-- The closure `matches` of `turnEntries`. -/
def isAnchor (anchor : Utf16) (turn : JsonObject) : Except HistoryError Bool := do
  return decide ((← id turn "Turn") = anchor)

def turnEntries (turns : List JsonObject) (direction : SortDirection) (cursor : Option Cursor) :
    Except HistoryError (List JsonObject) := do
  let step : Int := if direction = .asc then 1 else -1
  match cursor with
  | none => return turnsFrom turns direction (if direction = .asc then 0 else turns.length - 1)
  | some cursor =>
    let anchorIndex ←
      if direction = .asc then findIndex (isAnchor cursor.anchor) turns
      else findLastIndex (isAnchor cursor.anchor) turns
    match anchorIndex with
    | none => throw (.request "cursor anchor is no longer present")
    | some anchorIndex =>
      return turnsFrom turns direction (anchorIndex + if cursor.includeAnchor then 0 else step)

def isItem : JsonValue → Bool
  | .object _ => true
  | _ => false

/-- The type of an item. -/
def hasType (type : String) : JsonValue → Bool
  | .object members => JsonObject.hasText members "type" type
  | _ => false

/-- `===` on the ids of two items. -/
def sameId (item other : JsonValue) : Bool :=
  match item, other with
  | .object item, .object other =>
    match JsonObject.get item "id", JsonObject.get other "id" with
    | none, none | some .null, some .null => true
    | some (.string id), some (.string id') => id = id'
    | some (.number id), some (.number id') => id = id'
    | some (.bool id), some (.bool id') => id = id'
    | _, _ => false
  | _, _ => false

def turnWithItemsView (turn : JsonObject) (view : ItemsView) : JsonObject :=
  let items := match turn.get "items" with
    | some (.array items) => items
    | _ => []
  let metadata := turn.delete "codexhostFileOperations"
  match view with
  | .full =>
    (turn.set "items" (.array (items.filter isItem))).set "itemsView" (.string (Utf16.ofString "full"))
  | .notLoaded =>
    (metadata.set "items" (.array [])).set "itemsView" (.string (Utf16.ofString "notLoaded"))
  | .summary =>
    let shown := match items.find? (hasType "userMessage"), items.reverse.find? (hasType "agentMessage") with
      | some user, some agent => if sameId user agent then [user] else [user, agent]
      | some user, none => [user]
      | none, some agent => [agent]
      | none, none => []
    (metadata.set "items" (.array shown)).set "itemsView" (.string (Utf16.ofString "summary"))

def listExternalTurns (turns : List JsonObject) (params : JsonObject) :
    Except HistoryError ExternalHistoryPage := do
  let direction ← sortDirection (params.get "sortDirection") .desc
  let cursor ← parseCursor (params.get "cursor")
  let limit ← pageSize (params.get "limit")
  let entries ← turnEntries turns direction cursor
  let (data, nextCursor, backwardsCursor) ← pageEntries entries (id · "Turn") limit
  let view ← itemsView (params.get "itemsView")
  return ⟨data.map (turnWithItemsView · view), nextCursor, backwardsCursor⟩

end CodexHost.Source.HostRuntime.ExternalThreadHistory
