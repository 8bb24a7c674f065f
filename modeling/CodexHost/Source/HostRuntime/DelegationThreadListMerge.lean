import CodexHost.Foundation.JsonNumber
import CodexHost.Foundation.TextEncoding

/-!
# Merged Thread lists of several sessions

`packages/host-runtime/src/delegation-thread-list-merge.ts`: one page of the merge of the lists of
all sessions, each read row by row, and the cursor that holds the continuation of every session.
Rows are of any type; the sessions' requests of a call are made one after the other.
-/
namespace CodexHost.Source.HostRuntime.Delegation
open Foundation

structure DelegationControlError where
  code : String
  message : String
  deriving DecidableEq, Repr

inductive ThreadListSort where
  | createdAsc | createdDesc | updatedAsc | updatedDesc | recencyAsc | recencyDesc
  deriving DecidableEq, Repr

def ThreadListSort.text : ThreadListSort → String
  | .createdAsc => "created-asc"
  | .createdDesc => "created-desc"
  | .updatedAsc => "updated-asc"
  | .updatedDesc => "updated-desc"
  | .recencyAsc => "recency-asc"
  | .recencyDesc => "recency-desc"

structure ThreadListInput where
  cwd : Option Utf16
  parentThreadId : Option Utf16
  limit : Int
  cursor : Option Utf16
  sort : ThreadListSort
  deriving DecidableEq, Repr

structure DelegationThreadListResult (Item : Type) where
  threads : List Item
  nextCursor : Option Utf16
  deriving DecidableEq, Repr

/-- A native continuation: `some none` starts a session, `none` is an exhausted session. -/
abbrev SessionPosition := Option (Option Utf16)

structure SessionHead (Item : Type) where
  row : Item
  nextCursor : Option Utf16
  deriving DecidableEq, Repr

def MAX_SESSION_PAGE_REQUESTS : Nat := 256

def invalidCursor (message : String) : DelegationControlError := ⟨"INVALID_ARGUMENT", message⟩

def internalError (message : String) : DelegationControlError := ⟨"INTERNAL_ERROR", message⟩

abbrev JsonValue := Json JsonNumber

/-- A member of an object. -/
def member (value : JsonValue) (key : String) : Option JsonValue :=
  match value with
  | .object members => members.lookup (Utf16.ofString key)
  | _ => none

/-- `{ v: 2, cwd, sort, generation, sessions }` -/
def mergedListCursor (cwd : Option Utf16) (sort : ThreadListSort) (generation : Utf16)
    (sessions : List SessionPosition) : JsonValue :=
  let text : Option Utf16 → JsonValue := fun value => value.elim .null .string
  .object [(Utf16.ofString "v", .number (.integer 2)), (Utf16.ofString "cwd", text cwd),
      (Utf16.ofString "sort", .string (Utf16.ofString sort.text)),
      (Utf16.ofString "generation", .string generation),
      (Utf16.ofString "sessions", .array (sessions.map fun position =>
        position.elim .null fun cursor => .object [(Utf16.ofString "cursor", text cursor)]))]

/-- `Buffer.from(JSON.stringify(cursor), "utf8").toString("base64url")` -/
def encodeCursor (cursor : JsonValue) : Utf16 :=
  Utf16.ofString (String.ofList
    (TextEncoding.base64url (TextEncoding.utf8Bytes (cursor.write JsonNumber.format))))

/-- `validPosition`, with the position it finds. -/
def validPosition (value : JsonValue) : Option SessionPosition :=
  match value with
  | .null => some none
  | .object _ =>
    match member value "cursor" with
    | some .null => some (some none)
    | some (.string cursor) => if cursor = [] then none else some (some (some cursor))
    | _ => none
  | _ => none

/-- The text that a cursor encodes, if it is its canonical encoding. -/
def decodeCursorText (cursor : Utf16) : Option (List Char) := do
  let characters := cursor.map fun unit => Char.ofNat unit.toNat
  let decoded ← TextEncoding.utf8Text (TextEncoding.fromBase64url characters)
  if Utf16.ofString (String.ofList (TextEncoding.base64url (TextEncoding.utf8Bytes decoded))) = cursor
  then some decoded
  else none

def decodeCursor (cursor : Utf16) (input : ThreadListInput) (sessions : Nat) (generation : Utf16) :
    Except DelegationControlError (List SessionPosition) := do
  let invalid := invalidCursor "List cursor is invalid"
  let some value := (decodeCursorText cursor).bind (Json.parse JsonNumber.format) | throw invalid
  let some (.number version) := member value "v" | throw invalid
  let some (.array items) := member value "sessions" | throw invalid
  let some positions := items.mapM validPosition | throw invalid
  if version ≠ .integer 2 then throw invalid
  let sortMatches := match member value "sort" with
    | some (.string sort) => decide (sort = Utf16.ofString input.sort.text)
    | _ => false
  let cwdMatches := match member value "cwd", input.cwd with
    | some .null, none => true
    | some (.string cwd), some wanted => decide (cwd = wanted)
    | _, _ => false
  if !sortMatches || !cwdMatches then
    throw (invalidCursor "List cursor does not match the current query")
  let generationMatches := match member value "generation" with
    | some (.string issued) => decide (issued = generation)
    | _ => false
  if positions.length ≠ sessions || !generationMatches then
    throw (invalidCursor "List cursor does not match the active Host Runtime sessions")
  return positions

section Merge
variable {Item : Type}

/-- What the call keeps of a session: its list, its position, the requests it may still make and
its next row. -/
structure SessionState (Item : Type) where
  list : ThreadListInput → Except DelegationControlError (DelegationThreadListResult Item)
  position : SessionPosition
  budget : Nat
  head : Option (SessionHead Item)

/-- `readHead` of a session. -/
def readHead (input : ThreadListInput)
    (list : ThreadListInput → Except DelegationControlError (DelegationThreadListResult Item)) :
    Nat → SessionPosition → Except DelegationControlError (SessionState Item)
  | budget, none => .ok ⟨list, none, budget, none⟩
  | 0, some _ => .error (internalError "Thread list exceeded its request bound")
  | budget + 1, some cursor => do
    let page ← list { input with limit := 1, cursor }
    if 1 < page.threads.length ∨ (page.nextCursor.isSome ∧ page.nextCursor = cursor) then
      .error (internalError "Thread list returned an invalid page")
    else match page.threads.head? with
      | some row => .ok ⟨list, some cursor, budget, some ⟨row, page.nextCursor⟩⟩
      | none => readHead input list budget (page.nextCursor.map some)

/-- A turn of the loop over the heads: the best head so far, with its index. -/
def betterHead (compare : Item → Item → Int) (best : Option (Nat × SessionHead Item)) (index : Nat) :
    Option (SessionHead Item) → Option (Nat × SessionHead Item)
  | none => best
  | some head =>
    match best with
    | none => some (index, head)
    | some (_, ahead) => if compare head.row ahead.row < 0 then some (index, head) else best

def bestHead (compare : Item → Item → Int) :
    Option (Nat × SessionHead Item) → Nat → List (SessionState Item) → Option (Nat × SessionHead Item)
  | best, _, [] => best
  | best, index, session :: sessions =>
    bestHead compare (betterHead compare best index session.head) (index + 1) sessions

/-- The loop that fills the page, with room for this many rows. -/
def emitRows (input : ThreadListInput) (compare : Item → Item → Int) :
    Nat → List (SessionState Item) → List Item →
      Except DelegationControlError (List (SessionState Item) × List Item)
  | 0, sessions, threads => .ok (sessions, threads)
  | room + 1, sessions, threads =>
    match bestHead compare none 0 sessions with
    | none => .ok (sessions, threads)
    | some (index, best) => do
      let emitted := threads ++ [best.row]
      let position : SessionPosition := best.nextCursor.map some
      let moved := sessions.modify index fun session => { session with position }
      match room, moved[index]? with
      | room + 1, some session => do
        let read ← readHead input session.list session.budget position
        emitRows input compare (room + 1) (moved.set index read) emitted
      | _, _ => .ok (moved, emitted)

/-- The positions at which a call starts; an empty cursor is none. -/
def startPositions (sessions : Nat) (input : ThreadListInput) (generation : Utf16) :
    Except DelegationControlError (List SessionPosition) :=
  match input.cursor.filter (· ≠ []) with
  | some cursor => decodeCursor cursor input sessions generation
  | none => .ok (List.replicate sessions (some none))

def mergeThreadListPages (sessions : List (ThreadListInput →
      Except DelegationControlError (DelegationThreadListResult Item)))
    (input : ThreadListInput) (compare : Item → Item → Int) (generation : Utf16) :
    Except DelegationControlError (DelegationThreadListResult Item) := do
  if input.limit ≤ 0 ∨ 100 < input.limit then
    throw (invalidCursor "List limit must be between 1 and 100")
  let positions ← startPositions sessions.length input generation
  let started ← (sessions.zip positions).mapM fun (list, position) =>
    readHead input list MAX_SESSION_PAGE_REQUESTS position
  let (ended, threads) ← emitRows input compare input.limit.toNat started []
  let positions := ended.map (·.position)
  return {
    threads
    nextCursor :=
      if positions.any Option.isSome then
        some (encodeCursor (mergedListCursor input.cwd input.sort generation positions))
      else none }

end Merge

end CodexHost.Source.HostRuntime.Delegation
