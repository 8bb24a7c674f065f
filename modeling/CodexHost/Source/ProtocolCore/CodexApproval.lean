import CodexHost.Source.ProtocolCore.JsonObject

/-!
# Approval requests of Codex

`packages/protocol-core/src/codex-approval.ts`: an approval interaction as a request to the client, and what
the client's answer to it means. An answer is a JSON value.
-/
namespace CodexHost.Source.ProtocolCore.CodexApproval
open Foundation

inductive HostApprovalEffect where
  | allowOnce | allowForSession | allowAlways | deny
  deriving DecidableEq, Repr

def HostApprovalEffect.text : HostApprovalEffect → String
  | .allowOnce => "allowOnce"
  | .allowForSession => "allowForSession"
  | .allowAlways => "allowAlways"
  | .deny => "deny"

structure HostApprovalAction where
  id : Utf16
  label : Utf16
  effect : HostApprovalEffect
  deriving DecidableEq, Repr

structure HostApprovalInteraction where
  turnId : Utf16
  title : Utf16
  description : Option Utf16
  subjectType : String
  actions : List HostApprovalAction
  deriving DecidableEq, Repr

structure HostApprovalResponse where
  actionId : Utf16
  deriving DecidableEq, Repr

structure ProjectionInput where
  threadId : Utf16
  interaction : HostApprovalInteraction
  serverName : Utf16
  deriving DecidableEq, Repr

structure CodexApprovalRequestProjection where
  request : JsonObject
  denyResponse : HostApprovalResponse
  parseResponse : JsonValue → Except String HostApprovalResponse

def TITLE_MAX_LENGTH : Nat := 150
def DESCRIPTION_MAX_LENGTH : Nat := 500
def SERVER_NAME_MAX_LENGTH : Nat := 80
def ELLIPSIS : Utf16 := Utf16.ofString "…"

/-- The code units that `trim` removes. -/
def isWhiteSpace (unit : UInt16) : Bool :=
  (9 ≤ unit && unit ≤ 13) || unit = 0x20 || unit = 0xA0 || unit = 0x1680 ||
    (0x2000 ≤ unit && unit ≤ 0x200A) || unit = 0x2028 || unit = 0x2029 || unit = 0x202F ||
    unit = 0x205F || unit = 0x3000 || unit = 0xFEFF

def trimEnd (value : Utf16) : Utf16 := value.rdropWhile isWhiteSpace

def trim (value : Utf16) : Utf16 := trimEnd (value.dropWhile isWhiteSpace)

/-- `[...text]`: a surrogate pair is one character. -/
def characters : Utf16 → List Utf16
  | [] => []
  | [unit] => [[unit]]
  | first :: second :: rest =>
    if Utf16.isHighSurrogate first && Utf16.isLowSurrogate second then [first, second] :: characters rest
    else [first] :: characters (second :: rest)

def boundedText (value : Utf16) (field : String) (maxLength : Nat) : Except String Utf16 :=
  let text := trim value
  if text.length = 0 ∨ text.length > maxLength then
    .error ("Host Approval " ++ field ++ " must contain 1 to " ++ toString maxLength ++ " characters")
  else .ok text

def clampedText (value : Utf16) (field : String) (maxLength : Nat) : Except String Utf16 :=
  let text := trim value
  if text.length = 0 then
    .error ("Host Approval " ++ field ++ " must contain at least 1 character")
  else if (characters text).length ≤ maxLength then .ok text
  else .ok (trimEnd ((characters text).take (maxLength - 1)).flatten ++ ELLIPSIS)

section Actions
variable (interaction : HostApprovalInteraction) (effect : HostApprovalEffect)

def actionsForEffect : List HostApprovalAction :=
  interaction.actions.filter fun action => action.effect = effect

def requiredActionForEffect : Except String HostApprovalAction :=
  match actionsForEffect interaction effect with
  | [action] => .ok action
  | _ => .error ("Host Approval must declare exactly one " ++ effect.text ++ " action")

def optionalActionForEffect : Except String (Option HostApprovalAction) :=
  match actionsForEffect interaction effect with
  | [] => .ok none
  | [action] => .ok (some action)
  | _ => .error ("Host Approval must declare at most one " ++ effect.text ++ " action")

/-- The loop of `validateActions` after some ids. -/
def validateFrom (ids : List Utf16) : List HostApprovalAction → Except String Unit
  | [] => .ok ()
  | action :: actions =>
    if action.id.length = 0 ∨ (trim action.label).length = 0 then
      .error "Host Approval action ID and label must be non-empty"
    else if ids.contains action.id then .error "Host Approval action IDs must be unique"
    else validateFrom (action.id :: ids) actions

def validateActions : Except String Unit := validateFrom [] interaction.actions

end Actions

def responseError (message : String) : String := "Codex Approval response is invalid: " ++ message

inductive Persist where
  | session | always
  deriving DecidableEq, Repr

def Persist.text : Persist → String
  | .session => "session"
  | .always => "always"

/-- `value` is `undefined` or JSON. -/
def responsePersist : Option JsonValue → Except String (Option Persist)
  | none => .ok none
  | some .null => .ok none
  | some (.object members) =>
    if members.length = 1 ∧ JsonObject.hasText members "persist" "session" then .ok (some .session)
    else if members.length = 1 ∧ JsonObject.hasText members "persist" "always" then .ok (some .always)
    else .error (responseError "contains malformed persist metadata")
  | some _ => .error (responseError "contains malformed persist metadata")

/-- The record of an answer and its action, when it has no other fields than the reviewed ones. -/
def reviewedResult (result : JsonValue) : Except String (JsonObject × Utf16) :=
  match result with
  | .object members =>
    match JsonObject.get members "action" with
    | some (.string action) =>
      if members.all fun member => ["action", "content", "_meta"].any fun key => member.1 == Utf16.ofString key then
        .ok (members, action)
      else .error (responseError "contains unreviewed fields")
    | _ => .error (responseError "missing action")
  | _ => .error (responseError "missing action")

def isAction (action : Utf16) (name : String) : Bool := action == Utf16.ofString name

/-- `value !== undefined && value !== null` -/
def isPresent : Option JsonValue → Bool
  | none | some .null => false
  | _ => true

/-- The answer `accept` in the compact widget, with the action of each scope. -/
def acceptScope (allow : HostApprovalAction) (allowForSession allowAlways : Option HostApprovalAction) :
    Option Persist → Except String HostApprovalResponse
  | some .session =>
    match allowForSession with
    | none => .error (responseError "contains an undeclared session scope")
    | some scope => .ok { actionId := scope.id }
  | some .always =>
    match allowAlways with
    | none => .error (responseError "contains an undeclared always scope")
    | some scope => .ok { actionId := scope.id }
  | none => .ok { actionId := allow.id }

/-- `!("content" in result) || isRecord(result.content) && Object.keys(result.content).length === 0` -/
def isEmptyContent : Option JsonValue → Bool
  | none | some (.object []) => true
  | _ => false

/-- `parseResponse` of the compact widget. -/
def parseScope (allow : HostApprovalAction) (allowForSession allowAlways : Option HostApprovalAction)
    (denyResponse : HostApprovalResponse) (value : JsonValue) : Except String HostApprovalResponse :=
  match reviewedResult value with
  | .error error => .error error
  | .ok (result, action) =>
    match responsePersist (JsonObject.get result "_meta") with
    | .error error => .error error
    | .ok selectedPersist =>
      if isAction action "accept" then
        if isEmptyContent (JsonObject.get result "content") then
          acceptScope allow allowForSession allowAlways selectedPersist
        else .error (responseError "contains non-empty accepted content")
      else if isAction action "decline" || isAction action "cancel" then
        if isPresent (JsonObject.get result "content") || selectedPersist.isSome then
          .error (responseError "contains fields incompatible with denial")
        else .ok denyResponse
      else .error (responseError "contains an unsupported action")

/-- The answer `accept` in the form. -/
def acceptChoice (actions : List HostApprovalAction) (content : Option JsonValue) :
    Except String HostApprovalResponse :=
  match content with
  | some (.object content) =>
    match JsonObject.get content "actionId" with
    | some (.string actionId) =>
      if content.length = 1 ∧ actions.any fun action => action.id == actionId then .ok { actionId }
      else .error (responseError "contains an undeclared approval choice")
    | _ => .error (responseError "contains an undeclared approval choice")
  | _ => .error (responseError "contains an undeclared approval choice")

/-- `parseResponse` of the form with all actions. -/
def parseChoice (actions : List HostApprovalAction) (denyResponse : HostApprovalResponse)
    (value : JsonValue) : Except String HostApprovalResponse :=
  match reviewedResult value with
  | .error error => .error error
  | .ok (result, action) =>
    if isPresent (JsonObject.get result "_meta") then
      .error (responseError "contains unexpected persist metadata")
    else if isAction action "decline" || isAction action "cancel" then
      if isPresent (JsonObject.get result "content") then
        .error (responseError "contains fields incompatible with denial")
      else .ok denyResponse
    else if isAction action "accept" then acceptChoice actions (JsonObject.get result "content")
    else .error (responseError "contains an undeclared approval choice")

def text (value : String) : JsonValue := .string (Utf16.ofString value)

/-- An object with its members in their order. -/
def record (members : List (String × JsonValue)) : JsonObject :=
  members.map fun member => (Utf16.ofString member.1, member.2)

def request (params : JsonObject) : JsonObject :=
  record [("method", text "mcpServer/elicitation/request"), ("params", .object params)]

/-- `persistValue`, from the scopes that are declared. -/
def persistValue : List Persist → Option JsonValue
  | [] => none
  | [scope] => some (text scope.text)
  | scopes => some (.array (scopes.map fun scope => text scope.text))

def projectApprovalChoices (input : ProjectionInput) : Except String CodexApprovalRequestProjection := do
  let interaction := input.interaction
  match actionsForEffect interaction .allowOnce, actionsForEffect interaction .deny with
  | allow :: _, deny :: _ =>
    let denyResponse : HostApprovalResponse := { actionId := deny.id }
    let serverName ← boundedText input.serverName "server name" SERVER_NAME_MAX_LENGTH
    let title ← clampedText interaction.title "title" TITLE_MAX_LENGTH
    let description := (interaction.description.filter (· ≠ [])).elim [] fun description =>
      Utf16.ofString "\n\n" ++ description
    let options : List JsonValue := interaction.actions.map fun action =>
      .object (record [("const", .string action.id), ("title", .string action.label)])
    let choice := record [("type", text "string"), ("title", text "Approval"), ("oneOf", .array options),
      ("default", .string allow.id)]
    let schema := record [("type", text "object"), ("properties", .object (record [("actionId", .object choice)])),
      ("required", .array [text "actionId"])]
    return {
      request := request (record [("serverName", .string serverName), ("threadId", .string input.threadId),
        ("turnId", .string interaction.turnId), ("mode", text "form"), ("message", .string (title ++ description)),
        ("requestedSchema", .object schema)])
      denyResponse
      parseResponse := parseChoice interaction.actions denyResponse }
  | _, _ => .error "Host Approval must declare allowOnce and deny actions"

/-- Some effect is declared twice. -/
def repeatsEffect (interaction : HostApprovalInteraction) : Bool :=
  (interaction.actions.map (·.effect)).dedup.length ≠ interaction.actions.length

def projectCodexApprovalRequest (input : ProjectionInput) : Except String CodexApprovalRequestProjection := do
  let interaction := input.interaction
  if interaction.subjectType ≠ "nativeAction" then .error "Host Approval subject is unsupported"
  else
    validateActions interaction
    if repeatsEffect interaction then projectApprovalChoices input
    else
      let allow ← requiredActionForEffect interaction .allowOnce
      let allowForSession ← optionalActionForEffect interaction .allowForSession
      let allowAlways ← optionalActionForEffect interaction .allowAlways
      let deny ← requiredActionForEffect interaction .deny
      let serverName ← boundedText input.serverName "server name" SERVER_NAME_MAX_LENGTH
      let title ← clampedText interaction.title "title" TITLE_MAX_LENGTH
      let description ← (interaction.description.filter (· ≠ [])).mapM fun description =>
        clampedText description "description" DESCRIPTION_MAX_LENGTH
      let denyResponse : HostApprovalResponse := { actionId := deny.id }
      let persist := (allowForSession.map fun _ => Persist.session).toList ++
        (allowAlways.map fun _ => Persist.always).toList
      let reason := (description.map fun description => ("reason", .string description)).toList
      let scopes := ((persistValue persist).map fun value => ("persist", value)).toList
      let metadata := record ([("codex_approval_kind", text "mcp_tool_call")] ++ reason ++ scopes)
      let schema := record [("type", text "object"), ("properties", .object [])]
      return {
        request := request (record [("serverName", .string serverName), ("threadId", .string input.threadId),
          ("turnId", .string interaction.turnId), ("mode", text "form"), ("message", .string title),
          ("requestedSchema", .object schema), ("_meta", .object metadata)])
        denyResponse
        parseResponse := parseScope allow allowForSession allowAlways denyResponse }

end CodexHost.Source.ProtocolCore.CodexApproval
