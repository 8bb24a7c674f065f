import CodexHost.Foundation.JsonNumber

/-!
# Compaction of client snapshots

`packages/host-runtime/src/client-snapshot-compaction.ts`: a placeholder stands for a settled Turn that the
client holds. The digest of the fingerprint is a parameter.
-/
namespace CodexHost.Source.HostRuntime.ClientSnapshotCompaction
open Foundation

abbrev Text := List Char

abbrev Value := Json JsonNumber

/-- The members of an object, apart from those that the type names. -/
abbrev Members := OrderedMap Utf16 Value

/-- A member name. -/
def key (name : String) : Utf16 := Utf16.ofString name

structure Item where
  id : Utf16
  type : Utf16
  members : Members

structure Turn where
  id : Utf16
  status : Utf16
  items : List Item
  members : Members

namespace Item

def toJson (item : Item) : Value :=
  .object ((key "id", .string item.id) :: (key "type", .string item.type) :: item.members.entries)

end Item

namespace Turn

def toJson (turn : Turn) : Value :=
  .object ((key "id", .string turn.id) :: (key "status", .string turn.status) ::
    (key "items", .array (turn.items.map Item.toJson)) :: turn.members.entries)

/-- The JSON of the Turn reads back as the Turn. -/
def Regular (turn : Turn) : Prop := Json.Regular JsonNumber.format turn.toJson

end Turn

/-- What the Host has captured. `thread` is reduced to its time and whether its status is active. -/
structure ClientThreadSnapshot where
  epoch : Text
  activeTurnId : Option Utf16
  updatedAt : Int
  active : Bool
  turns : List Turn
  nextCursor : Option Text
  regular : ∀ turn ∈ turns, turn.Regular

/-- A Turn as it is sent. -/
structure ServedTurn where
  turn : Turn
  fingerprint : Option Text
  unchanged : Bool

structure ClientSnapshotOptions where
  knownTurns : Option (List (Utf16 × Text))
  truncateToolOutput : Bool

def SNAPSHOT_TOOL_OUTPUT_LIMIT : Nat := 64 * 1024

def SNAPSHOT_TOOL_OUTPUT_PREVIEW : Nat := 8 * 1024

def OUTPUT_FIELDS (type : Utf16) : Option (List Utf16) :=
  [("commandExecution", ["aggregatedOutput"]), ("fileChange", ["changes"]), ("mcpToolCall", ["result", "error"]),
    ("dynamicToolCall", ["contentItems"])].findSome? fun entry =>
      if key entry.1 = type then some (entry.2.map key) else none

def settled (turn : Turn) (activeTurnId : Option Utf16) : Bool :=
  turn.status ≠ key "inProgress" && some turn.id ≠ activeTurnId

/-- The preview never splits a surrogate pair. -/
def shorten (text : Utf16) : Utf16 :=
  let cut := text[SNAPSHOT_TOOL_OUTPUT_PREVIEW - 1]?.any Utf16.isHighSurrogate
  text.take (if cut then SNAPSHOT_TOOL_OUTPUT_PREVIEW - 1 else SNAPSHOT_TOOL_OUTPUT_PREVIEW)

inductive PathPart where
  | name (key : Utf16)
  | index (index : Nat)

/-- A string that has been shortened. -/
structure TruncatedField where
  path : List PathPart
  originalLength : Nat

mutual

def truncateValue (path : List PathPart) : Value → Value × List TruncatedField
  | .string value =>
    if value.length ≤ SNAPSHOT_TOOL_OUTPUT_LIMIT then (.string value, [])
    else (.string (shorten value), [⟨path, value.length⟩])
  | .array items =>
    let truncated := truncateEntries path 0 items
    (.array truncated.1, truncated.2)
  | .object members =>
    let truncated := truncateMembers path members
    (.object truncated.1, truncated.2)
  | value => (value, [])

def truncateEntries (path : List PathPart) : Nat → List Value → List Value × List TruncatedField
  | _, [] => ([], [])
  | index, entry :: entries =>
    let first := truncateValue (path ++ [.index index]) entry
    let rest := truncateEntries path (index + 1) entries
    (first.1 :: rest.1, first.2 ++ rest.2)

def truncateMembers (path : List PathPart) : List (Utf16 × Value) → List (Utf16 × Value) × List TruncatedField
  | [] => ([], [])
  | (name, entry) :: members =>
    let first := truncateValue (path ++ [.name name]) entry
    let rest := truncateMembers path members
    ((name, first.1) :: rest.1, first.2 ++ rest.2)

end

def PathPart.toJson : PathPart → Value
  | .name key => .string key
  | .index position => .number (.integer position)

def TruncatedField.toJson (field : TruncatedField) : Value :=
  .object [(key "path", .array (field.path.map PathPart.toJson)),
    (key "originalLength", .number (.integer field.originalLength))]

/-- The output fields of an Item, one after the other. -/
def truncateFields : List Utf16 → Members → Members × List TruncatedField
  | [], members => (members, [])
  | name :: names, members =>
    match members.get? name with
    | none => truncateFields names members
    | some value =>
      let truncated := truncateValue [.name name] value
      let rest := truncateFields names (members.set name truncated.1)
      (rest.1, truncated.2 ++ rest.2)

def inProgress (members : Members) : Bool :=
  match members.get? (key "status") with
  | some (.string status) => status = key "inProgress"
  | _ => false

def truncateItem (item : Item) : Item :=
  match OUTPUT_FIELDS item.type with
  | none => item
  | some keys =>
    if inProgress item.members then item
    else
      let truncated := truncateFields keys item.members
      if truncated.2.length = 0 then item
      else
        { item with
          members := truncated.1.set (key "codexhostTruncated")
            (.object [(key "fields", .array (truncated.2.map TruncatedField.toJson))]) }

section Compaction
variable (digest : Text → Text)

/-- Bound to the epoch, so a fingerprint from a previous Host never matches. -/
def fingerprint (epoch : Text) (turn : Turn) : Text :=
  digest (epoch ++ '\x00' :: Json.write JsonNumber.format turn.toJson)

/-- The form in which a settled Turn is served. -/
def servedTurn (truncateToolOutput : Bool) (turn : Turn) : Turn :=
  if truncateToolOutput then { turn with items := turn.items.map truncateItem } else turn

def compactTurn (snapshot : ClientThreadSnapshot) (options : ClientSnapshotOptions) (turn : Turn) : ServedTurn :=
  if !settled turn snapshot.activeTurnId then ⟨turn, none, false⟩
  else
    let served := servedTurn options.truncateToolOutput turn
    match options.knownTurns with
    | none => ⟨served, none, false⟩
    | some knownTurns =>
      let known := OrderedMap.empty.setAll knownTurns
      let value := fingerprint digest snapshot.epoch served
      if known.get? turn.id = some value then ⟨⟨turn.id, turn.status, [], .empty⟩, some value, true⟩
      else ⟨served, some value, false⟩

/-- The Turns of the page that is sent; the rest of the snapshot is sent as it is. -/
def compactClientSnapshot (snapshot : ClientThreadSnapshot) (options : ClientSnapshotOptions) :
    List ServedTurn :=
  if options.knownTurns.isNone && !options.truncateToolOutput then
    snapshot.turns.map fun turn => ⟨turn, none, false⟩
  else snapshot.turns.map (compactTurn digest snapshot options)

end Compaction

end CodexHost.Source.HostRuntime.ClientSnapshotCompaction
