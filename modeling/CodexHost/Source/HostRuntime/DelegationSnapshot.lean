import CodexHost.Foundation.TextEncoding
import CodexHost.Source.ProtocolCore.JsonObject
import CodexHost.Source.SharedContracts

/-!
# Snapshots of a delegated Thread

`packages/host-runtime/src/delegation-snapshot.ts`: the visible messages of a child Thread, the page of
them that a read gets, and the cursor, which counts the messages that earlier reads have passed. The
digest of the Thread ID is a parameter.
-/
namespace CodexHost.Source.HostRuntime.DelegationSnapshot
open Foundation Source.SharedContracts Source.ProtocolCore

def CURSOR_PREFIX : String := "codexhost:thread-messages:v1:"

def DEFAULT_MESSAGE_LIMIT : Int := 25

def MAX_MESSAGE_LIMIT : Int := 100

/-- `DelegationControlError` with the code `INVALID_ARGUMENT`. -/
structure InvalidArgument where
  message : String
  deriving DecidableEq, Repr

inductive DelegationThreadStatus where
  | running | completed | failed | interrupted
  deriving DecidableEq, Repr

inductive Role where
  | user | agent
  deriving DecidableEq, Repr

inductive Phase where
  | commentary | final
  deriving DecidableEq, Repr

structure DelegationMessage where
  id : Utf16
  turnId : Utf16
  role : Role
  phase : Option Phase
  text : Utf16
  deriving DecidableEq, Repr

structure DelegationProgress where
  id : Utf16
  turnId : Utf16
  text : Utf16
  deriving DecidableEq, Repr

inductive DelegationResult where
  | pending
  | available (text : Utf16)
  | unavailable (message : Option Utf16)
  deriving DecidableEq, Repr

inductive ThreadView where
  | result | messages
  deriving DecidableEq, Repr

structure DelegationThreadSnapshot where
  threadId : Utf16
  harnessId : Utf16
  status : DelegationThreadStatus
  turn : Option (Utf16 × DelegationThreadStatus)
  progress : List DelegationProgress
  result : DelegationResult
  messages : Option (List DelegationMessage)
  hasMore : Option Bool
  nextCursor : Utf16
  deriving DecidableEq, Repr

/-- The object that a value is, if `isRecord` accepts it. -/
def isRecord : JsonValue → Option JsonObject
  | .object members => some members
  | _ => none

def stringValue (value : Option JsonValue) : Option Utf16 :=
  match value with
  | some (.string text) => if text.length > 0 then some text else none
  | _ => none

/-- `text.trim()` is not empty. -/
def hasInk (text : Utf16) : Bool :=
  !text.all fun unit => EcmaString.isWhiteSpace (Char.ofNat unit.toNat)

def textPart (part : JsonValue) : Option Utf16 :=
  (isRecord part).bind fun part =>
    if part.hasText "type" "text" then
      match part.get "text" with
      | some (.string text) => some text
      | _ => none
    else none

def textFromUserItem (item : JsonObject) : Utf16 :=
  match item.get "content" with
  | some (.array parts) => List.intercalate (Utf16.ofString "\n") (parts.filterMap textPart)
  | _ => []

def threadStatus (value : Option JsonValue) (running : Bool) : DelegationThreadStatus :=
  if running then .running
  else if (value.bind isRecord).any (JsonObject.hasText · "type" "active") then .running
  else .completed

def turnStatus (turn : JsonObject) : DelegationThreadStatus :=
  if turn.hasText "status" "inProgress" || turn.hasText "status" "running" then .running
  else if turn.hasText "status" "failed" then .failed
  else if turn.hasText "status" "interrupted" || turn.hasText "status" "cancelled" then .interrupted
  else .completed

def isAgentItem (item : JsonValue) : Bool :=
  (isRecord item).any (JsonObject.hasText · "type" "agentMessage")

/-- The message that an item is, if it is visible; `itemIndex` is its place among `agentItems`. -/
def visibleMessage (turn : JsonObject) (turnId : Utf16) (agentItems itemIndex : Nat) (item : JsonValue) :
    Option DelegationMessage := do
  let item ← isRecord item
  let id ← stringValue (item.get "id")
  if item.hasText "type" "userMessage" then
    let text := textFromUserItem item
    if text = [] then none else some ⟨id, turnId, .user, none, text⟩
  else if item.hasText "type" "agentMessage" then
    match item.get "text" with
    | some (.string text) =>
      let phase :=
        if item.hasText "phase" "commentary" then .commentary
        else if item.hasText "phase" "final" then .final
        else if turn.hasText "status" "inProgress" || itemIndex + 1 < agentItems then .commentary
        else .final
      if text = [] then none else some ⟨id, turnId, .agent, some phase, text⟩
    | _ => none
  else none

/-- The item loop of `allVisibleMessages`, with the agent items so far. -/
def visibleItems (turn : JsonObject) (turnId : Utf16) (agentItems : Nat) :
    Nat → List JsonValue → List DelegationMessage
  | _, [] => []
  | itemIndex, item :: items =>
    (visibleMessage turn turnId agentItems itemIndex item).toList ++
      visibleItems turn turnId agentItems (if isAgentItem item then itemIndex + 1 else itemIndex) items

def turnMessages (turn : JsonObject) : List DelegationMessage :=
  match stringValue (turn.get "id"), turn.get "items" with
  | some turnId, some (.array items) =>
    visibleItems turn turnId (items.filter isAgentItem).length 0 items
  | _, _ => []

def allVisibleMessages (turns : List JsonObject) : List DelegationMessage := turns.flatMap turnMessages

section Cursor
variable (cursorFingerprint : Utf16 → Utf16)

def encodeCursor (threadId : Utf16) (offset : Nat) : Utf16 :=
  let payload : JsonValue := .object [(Utf16.ofString "version", .number (.integer 1)),
      (Utf16.ofString "fingerprint", .string (cursorFingerprint threadId)),
      (Utf16.ofString "offset", .number (.integer offset))]
  Utf16.ofString CURSOR_PREFIX ++
    Utf16.ofText (TextEncoding.base64url (TextEncoding.utf8Bytes (payload.write JsonNumber.format)))

/-- The offset of a decoded cursor that is valid for the Thread. -/
def cursorOffset (threadId : Utf16) : JsonValue → Option Nat
  | .object members =>
    match JsonObject.get members "version", JsonObject.get members "fingerprint",
      JsonObject.get members "offset" with
    | some (.number version), some (.string fingerprint), some (.number (.integer offset)) =>
      if version = .integer 1 ∧ fingerprint = cursorFingerprint threadId ∧ 0 ≤ offset ∧
          offset ≤ maxSafeInteger then some offset.toNat
      else none
    | _, _, _ => none
  | _ => none

def decodeCursor (threadId : Utf16) (cursor : Option Utf16) : Except InvalidArgument Nat :=
  match cursor with
  | none | some [] => .ok 0
  | some cursor =>
    if !(Utf16.ofString CURSOR_PREFIX).isPrefixOf cursor then .error ⟨"Message cursor is invalid"⟩
    else
      let encoded := Utf16.text (cursor.drop (Utf16.ofString CURSOR_PREFIX).length)
      match ((TextEncoding.utf8Text (TextEncoding.fromBase64url encoded)).bind
          (Json.parse JsonNumber.format)).bind (cursorOffset cursorFingerprint threadId) with
      | some offset => .ok offset
      | none => .error ⟨"Message cursor is invalid"⟩

structure ReadOptions where
  view : ThreadView
  cursor : Option Utf16
  limit : Nat

def validateReadOptions (view : ThreadView) (cursor : Option Utf16) (limit : Option JsonNumber) :
    Except InvalidArgument ReadOptions :=
  if view = .result ∧ (cursor.isSome ∨ limit.isSome) then
    .error ⟨"--cursor and --limit require --view messages"⟩
  else
    match limit.getD (.integer DEFAULT_MESSAGE_LIMIT) with
    | .integer limit =>
      if limit ≤ 0 ∨ limit > MAX_MESSAGE_LIMIT then
        .error ⟨s!"Message limit must be between 1 and {MAX_MESSAGE_LIMIT}"⟩
      else .ok ⟨view, cursor.filter (· ≠ []), limit.toNat⟩
    | .other _ => .error ⟨s!"Message limit must be between 1 and {MAX_MESSAGE_LIMIT}"⟩

/-- The loop that fills a page: the messages it takes, and how many it passes. -/
def fillPage : List DelegationMessage → Nat → List DelegationMessage × Nat
  | [], _ => ([], 0)
  | _ :: _, 0 => ([], 0)
  | message :: rest, limit + 1 =>
    if hasInk message.text then
      let (page, passed) := fillPage rest limit
      (message :: page, passed + 1)
    else
      let (page, passed) := fillPage rest (limit + 1)
      (page, passed + 1)

structure SnapshotInput where
  threadId : Utf16
  harnessId : Utf16
  thread : JsonObject
  turns : List JsonObject
  running : Bool
  view : ThreadView
  cursor : Option Utf16
  limit : Option JsonNumber

/-- The status of the Thread. -/
def snapshotStatus (input : SnapshotInput) : DelegationThreadStatus :=
  if input.running then .running
  else
    match input.turns.getLast?.map turnStatus with
    | some .failed => .failed
    | some .interrupted => .interrupted
    | _ => threadStatus (input.thread.get "status") input.running

/-- The Agent messages of the last Turn. -/
def latestTurnMessages (input : SnapshotInput) : List DelegationMessage :=
  match input.turns.getLast?.bind fun turn => stringValue (turn.get "id") with
  | some turnId => (allVisibleMessages input.turns).filter fun message =>
      message.turnId = turnId && message.role = .agent
  | none => []

def snapshotResult (input : SnapshotInput) : DelegationResult :=
  if input.running then .pending
  else
    match ((latestTurnMessages input).filter fun message =>
        message.phase = some .final && hasInk message.text).getLast? with
    | some final => .available final.text
    | none => .unavailable (do
        let turn ← input.turns.getLast?
        let error ← (turn.get "error").bind isRecord
        match error.get "message" with
        | some (.string message) => some message
        | _ => none)

def projectDelegationThreadSnapshot (input : SnapshotInput) :
    Except InvalidArgument DelegationThreadSnapshot := do
  let options ← validateReadOptions input.view (input.cursor.filter (· ≠ [])) input.limit
  let visible := allVisibleMessages input.turns
  let progress := (latestTurnMessages input).filter fun message =>
    message.phase ≠ some .final && hasInk message.text
  let offset ← if options.view = .messages then
      decodeCursor cursorFingerprint input.threadId options.cursor
    else pure visible.length
  let (page, passed) :=
    if options.view = .messages then fillPage (visible.drop offset) options.limit else ([], 0)
  let nextOffset := offset + passed
  let latest := do
    let turn ← input.turns.getLast?
    let turnId ← stringValue (turn.get "id")
    return (turnId, turnStatus turn)
  return {
    threadId := input.threadId
    harnessId := input.harnessId
    status := snapshotStatus input
    turn := latest
    progress := progress.map fun message => ⟨message.id, message.turnId, message.text⟩
    result := snapshotResult input
    messages := if options.view = .messages then some page else none
    hasMore := if options.view = .messages then
        some ((visible.drop nextOffset).any (hasInk ·.text)) else none
    nextCursor := encodeCursor cursorFingerprint input.threadId nextOffset }

end Cursor

end CodexHost.Source.HostRuntime.DelegationSnapshot
