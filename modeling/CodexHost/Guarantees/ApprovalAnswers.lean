import CodexHost.Source.ProtocolCore.CodexApproval

/-!
# What an answer to an approval grants

An answer is read by one of two projections: a scope for each effect, or a choice among all actions. Each
gives a permission only for `accept`, and then the one that the answer names.
-/
namespace CodexHost.Guarantees.ApprovalAnswers
open Foundation Source.ProtocolCore Source.ProtocolCore.CodexApproval List

/-- A member of an answer, if the answer is an object. -/
def member (value : JsonValue) (key : String) : Option JsonValue :=
  match value with
  | .object members => JsonObject.get members key
  | _ => none

/-- The value at a path of members. -/
def descend (value : JsonValue) : List String → Option JsonValue
  | [] => some value
  | key :: path => (member value key).bind fun value => descend value path

def hasAction (value : JsonValue) (name : String) : Prop := member value "action" = some (text name)

/-- The effect of the scope that an answer asks for. -/
def requestedEffect (value : JsonValue) : Option HostApprovalEffect :=
  match member value "_meta" with
  | none | some .null => some .allowOnce
  | some (.object members) =>
    if JsonObject.hasText members "persist" "session" then some .allowForSession
    else if JsonObject.hasText members "persist" "always" then some .allowAlways
    else none
  | some _ => none

/-- The action that an answer chooses in the form. -/
def chosenId (value : JsonValue) : Option JsonValue :=
  (member value "content").bind fun content => member content "actionId"

/-- The permission that an accepting answer means. -/
def Means (interaction : HostApprovalInteraction) (value : JsonValue) (action : HostApprovalAction) : Prop :=
  hasAction value "accept" ∧
    if repeatsEffect interaction then chosenId value = some (.string action.id)
    else requestedEffect value = some action.effect

def texts : Option JsonValue → List Utf16
  | some (.string value) => [value]
  | some (.array items) => items.filterMap fun item => match item with | .string value => some value | _ => none
  | _ => []

/-- The scopes that the request's metadata lists. -/
def persistOffers (request : JsonObject) : List Utf16 :=
  texts (descend (.object request) ["params", "_meta", "persist"])

/-- The options of the request's form. -/
def optionIds (request : JsonObject) : List Utf16 :=
  match descend (.object request) ["params", "requestedSchema", "properties", "actionId", "oneOf"] with
  | some (.array options) => options.flatMap fun option => texts (member option "const")
  | _ => []

/-- The answers that a request offers. -/
inductive Offers (request : JsonObject) : JsonValue → Prop
  | decline : Offers request (.object (record [("action", text "decline")]))
  | accept (free : descend (.object request) ["params", "requestedSchema", "required"] = none) :
    Offers request (.object (record [("action", text "accept"), ("content", .object [])]))
  | persist (scope : Utf16) (listed : scope ∈ persistOffers request) :
    Offers request (.object (record [("action", text "accept"), ("content", .object []),
      ("_meta", .object (record [("persist", .string scope)]))]))
  | option (id : Utf16) (listed : id ∈ optionIds request) :
    Offers request (.object (record [("action", text "accept"),
      ("content", .object (record [("actionId", .string id)]))]))

variable {action : HostApprovalAction} {actions : List HostApprovalAction}

section Actions
variable {interaction : HostApprovalInteraction} {effect : HostApprovalEffect}

theorem validateFrom_nodup {ids : List Utf16} (valid : validateFrom ids actions = .ok ()) :
    (actions.map (·.id)).Nodup ∧ ∀ action ∈ actions, action.id ∉ ids := by
  induction actions generalizing ids with
  | nil => simp
  | cons action actions ih =>
    rw [validateFrom] at valid
    split at valid
    · simp at valid
    · split at valid
      · simp at valid
      · rename_i new
        obtain ⟨nodup, others⟩ := ih valid
        refine ⟨?_, ?_⟩
        · rw [map_cons, nodup_cons]
          refine ⟨fun again => ?_, nodup⟩
          obtain ⟨other, has, same⟩ := mem_map.1 again
          exact others other has (by simp [same])
        · intro other has
          rcases mem_cons.1 has with rfl | later
          · simpa using new
          · exact fun known => others other later (mem_cons_of_mem _ known)

theorem mem_actionsForEffect :
    action ∈ actionsForEffect interaction effect ↔ action ∈ interaction.actions ∧ action.effect = effect := by
  rw [actionsForEffect, mem_filter, decide_eq_true_eq]

/-- The one action of a required effect. -/
theorem required_only (required : requiredActionForEffect interaction effect = .ok action) :
    ∀ other, other ∈ interaction.actions ∧ other.effect = effect ↔ other = action := by
  intro other
  rw [← mem_actionsForEffect]
  rw [requiredActionForEffect] at required
  split at required
  · rename_i only is
    rw [is, mem_singleton, Except.ok.inj required]
  · simp at required

theorem optional_only {action : Option HostApprovalAction}
    (optional_ : optionalActionForEffect interaction effect = .ok action) :
    ∀ other, other ∈ interaction.actions ∧ other.effect = effect ↔ action = some other := by
  intro other
  rw [← mem_actionsForEffect]
  rw [optionalActionForEffect] at optional_
  split at optional_
  · rename_i is
    rw [is, ← Except.ok.inj optional_]
    simp
  · rename_i only is
    rw [is, ← Except.ok.inj optional_, mem_singleton, Option.some.injEq]
    exact eq_comm
  · simp at optional_

end Actions

variable {value : JsonValue}

section Answers

variable {result : JsonObject}

theorem reviewedResult_ok {action : Utf16} (reviewed : reviewedResult value = .ok (result, action)) :
    value = .object result ∧ JsonObject.get result "action" = some (.string action) := by
  cases value with
  | object members =>
    rw [reviewedResult] at reviewed
    split at reviewed
    · rename_i is
      split at reviewed
      · obtain ⟨rfl, rfl⟩ := reviewed
        exact ⟨rfl, is⟩
      · simp at reviewed
    · simp at reviewed
  | _ => simp [reviewedResult] at reviewed

def effectOf : Option Persist → HostApprovalEffect
  | none => .allowOnce
  | some .session => .allowForSession
  | some .always => .allowAlways

theorem responsePersist_ok {persist : Option Persist}
    (ok : responsePersist (JsonObject.get result "_meta") = .ok persist) :
    requestedEffect (.object result) = some (effectOf persist) := by
  rw [requestedEffect, member]
  cases is : JsonObject.get result "_meta" with
  | none =>
    rw [is, responsePersist] at ok
    rw [← Except.ok.inj ok]
    rfl
  | some value =>
    rw [is] at ok
    cases value with
    | null =>
      rw [← Except.ok.inj ok]
      rfl
    | object members =>
      rw [responsePersist] at ok
      dsimp only
      split at ok
      · rename_i session
        rw [if_pos session.2, ← Except.ok.inj ok]
        rfl
      · split at ok
        · rename_i always
          have other : ¬ JsonObject.hasText members "persist" "session" = true := by
            intro session
            rename_i first
            exact first ⟨always.1, session⟩
          rw [if_neg other, if_pos always.2, ← Except.ok.inj ok]
          rfl
        · simp at ok
    | _ => simp [responsePersist] at ok

/-- The action of a scope in the compact widget. -/
def scopeOf (allow : HostApprovalAction) (allowForSession allowAlways : Option HostApprovalAction) :
    HostApprovalEffect → Option HostApprovalAction
  | .allowOnce => some allow
  | .allowForSession => allowForSession
  | .allowAlways => allowAlways
  | .deny => none

theorem acceptScope_ok {allow : HostApprovalAction} {allowForSession allowAlways : Option HostApprovalAction}
    {persist : Option Persist} {response : HostApprovalResponse}
    (ok : acceptScope allow allowForSession allowAlways persist = .ok response) :
    ∃ action, scopeOf allow allowForSession allowAlways (effectOf persist) = some action ∧
      response = { actionId := action.id } := by
  rcases persist with _ | _ | _
  · exact ⟨allow, rfl, (Except.ok.inj ok).symm⟩
  · cases allowForSession with
    | none => simp [acceptScope] at ok
    | some scope => exact ⟨scope, rfl, (Except.ok.inj ok).symm⟩
  · cases allowAlways with
    | none => simp [acceptScope] at ok
    | some scope => exact ⟨scope, rfl, (Except.ok.inj ok).symm⟩

theorem hasAction_of_isAction {action : Utf16}
    (is : JsonObject.get result "action" = some (.string action)) (name : String)
    (same : isAction action name = true) : hasAction (.object result) name := by
  rw [isAction, beq_iff_eq] at same
  rw [hasAction, member, is, text, same]

/-- What the compact widget's answer is: the requested scope's action, or the denial. -/
theorem parseScope_ok {allow : HostApprovalAction} {allowForSession allowAlways : Option HostApprovalAction}
    {denyResponse response : HostApprovalResponse}
    (ok : parseScope allow allowForSession allowAlways denyResponse value = .ok response) :
    (hasAction value "accept" ∧ ∃ effect action, requestedEffect value = some effect ∧
      scopeOf allow allowForSession allowAlways effect = some action ∧ response = { actionId := action.id }) ∨
    ((hasAction value "decline" ∨ hasAction value "cancel") ∧ response = denyResponse) := by
  rw [parseScope] at ok
  cases reviewed : reviewedResult value with
  | error error => simp [reviewed] at ok
  | ok pair =>
    obtain ⟨result, action⟩ := pair
    obtain ⟨rfl, is⟩ := reviewedResult_ok reviewed
    simp only [reviewed] at ok
    cases persisted : responsePersist (JsonObject.get result "_meta") with
    | error error => simp [persisted] at ok
    | ok persist =>
      have effect := responsePersist_ok persisted
      simp only [persisted] at ok
      split at ok
      · rename_i accept
        split at ok
        · obtain ⟨scope, granted, response_⟩ := acceptScope_ok ok
          exact .inl ⟨hasAction_of_isAction is _ accept, _, scope, effect, granted, response_⟩
        · simp at ok
      · split at ok
        · rename_i denial
          rw [Bool.or_eq_true] at denial
          split at ok
          · simp at ok
          · exact .inr ⟨denial.imp (hasAction_of_isAction is _) (hasAction_of_isAction is _),
              (Except.ok.inj ok).symm⟩
        · simp at ok

theorem acceptChoice_ok {response : HostApprovalResponse}
    (ok : acceptChoice actions (JsonObject.get result "content") = .ok response) :
    chosenId (.object result) = some (.string response.actionId) ∧
      ∃ action ∈ actions, action.id = response.actionId := by
  rw [chosenId, member]
  cases content : JsonObject.get result "content" with
  | none => simp [content, acceptChoice] at ok
  | some value =>
    cases value with
    | object members =>
      rw [content, acceptChoice] at ok
      split at ok
      · rename_i id is
        split at ok
        · rename_i chosen
          obtain ⟨action, has, same⟩ := any_eq_true.1 chosen.2
          rw [beq_iff_eq] at same
          rw [← Except.ok.inj ok]
          exact ⟨is, action, has, same⟩
        · simp at ok
      · simp at ok
    | _ => simp [content, acceptChoice] at ok

/-- What the form's answer is: the chosen action, or the denial. -/
theorem parseChoice_ok {denyResponse response : HostApprovalResponse} (ok : parseChoice actions denyResponse value = .ok response) :
    (hasAction value "accept" ∧ chosenId value = some (.string response.actionId) ∧
      ∃ action ∈ actions, action.id = response.actionId) ∨
    ((hasAction value "decline" ∨ hasAction value "cancel") ∧ response = denyResponse) := by
  rw [parseChoice] at ok
  cases reviewed : reviewedResult value with
  | error error => simp [reviewed] at ok
  | ok pair =>
    obtain ⟨rfl, is⟩ := reviewedResult_ok reviewed
    simp only [reviewed] at ok
    split at ok
    · simp at ok
    · split at ok
      · rename_i denial
        rw [Bool.or_eq_true] at denial
        split at ok
        · simp at ok
        · exact .inr ⟨denial.imp (hasAction_of_isAction is _) (hasAction_of_isAction is _),
            (Except.ok.inj ok).symm⟩
      · split at ok
        · rename_i accept
          exact .inl ⟨hasAction_of_isAction is _ accept, acceptChoice_ok ok⟩
        · simp at ok

end Answers

theorem get_record (members : List (String × JsonValue)) (key : String) :
    JsonObject.get (record members) key = members.lookup key := by
  rw [JsonObject.get, record]
  induction members with
  | nil => rfl
  | cons entry members ih =>
    rw [map_cons, lookup_cons, lookup_cons, ih]
    by_cases same : key = entry.1
    · simp [same]
    · have apart : (Utf16.ofString key == Utf16.ofString entry.1) = false := by
        simpa [Utf16.ofString_inj] using same
      have other : (key == entry.1) = false := by simpa using same
      rw [apart, other]

@[simp] theorem member_record (members : List (String × JsonValue)) (key : String) :
    member (.object (record members)) key = members.lookup key := get_record members key

theorem reviewedResult_record {members : List (String × JsonValue)} {action : String}
    (has : members.lookup "action" = some (text action))
    (known : members.all (fun entry => ["action", "content", "_meta"].contains entry.1) = true) :
    reviewedResult (.object (record members)) = .ok (record members, Utf16.ofString action) := by
  have reviewed : ((record members).all fun entry =>
      ["action", "content", "_meta"].any fun key => entry.1 == Utf16.ofString key) = true := by
    rw [record, all_map, all_eq_true]
    intro entry taken
    have one := all_eq_true.1 known entry taken
    rw [contains_iff_mem] at one
    exact any_eq_true.2 ⟨entry.1, one, by simp⟩
  rw [reviewedResult, get_record, has, text]
  dsimp only
  rw [if_pos reviewed]

theorem isAction_ofString (action name : String) :
    isAction (Utf16.ofString action) name = (action == name) := by
  rw [isAction, Bool.eq_iff_iff, beq_iff_eq, beq_iff_eq, Utf16.ofString_inj]

section Compact
variable (allow : HostApprovalAction) (allowForSession allowAlways : Option HostApprovalAction)
variable (denyResponse : HostApprovalResponse)

theorem parseScope_decline : parseScope allow allowForSession allowAlways denyResponse
    (.object (record [("action", text "decline")])) = .ok denyResponse := by
  rw [parseScope, reviewedResult_record rfl rfl]
  simp [get_record, List.lookup, responsePersist, isAction_ofString, isPresent]

theorem parseScope_accept : parseScope allow allowForSession allowAlways denyResponse
    (.object (record [("action", text "accept"), ("content", .object [])])) =
      .ok { actionId := allow.id } := by
  rw [parseScope, reviewedResult_record rfl rfl]
  simp [get_record, responsePersist, isAction_ofString, isEmptyContent, acceptScope, List.lookup]

theorem parseScope_persist (persist : Persist) : parseScope allow allowForSession allowAlways denyResponse
    (.object (record [("action", text "accept"), ("content", .object []),
      ("_meta", .object (record [("persist", .string (Utf16.ofString persist.text))]))])) =
      acceptScope allow allowForSession allowAlways (some persist) := by
  have read : responsePersist (some (.object (record [("persist", .string (Utf16.ofString persist.text))]))) =
      .ok (some persist) := by
    have length (entry : String × JsonValue) : (record [entry]).length = 1 := rfl
    cases persist <;>
      simp [responsePersist, length, JsonObject.hasText, get_record, Persist.text, Utf16.ofString_inj]
  rw [parseScope, reviewedResult_record rfl rfl]
  simp [get_record, List.lookup, read, isAction_ofString, isEmptyContent]

end Compact

theorem parseChoice_option (has : action ∈ actions) (denyResponse : HostApprovalResponse) :
    parseChoice actions denyResponse (.object (record [("action", text "accept"),
      ("content", .object (record [("actionId", .string action.id)]))])) =
      .ok { actionId := action.id } := by
  have length : (record [("actionId", .string action.id)]).length = 1 := rfl
  have some : actions.any (fun other => other.id == action.id) = true :=
    any_eq_true.2 ⟨action, has, beq_self_eq_true _⟩
  rw [parseChoice, reviewedResult_record rfl rfl]
  simp [get_record, List.lookup, isPresent, isAction_ofString, acceptChoice, length, some]

theorem bind_ok {A B : Type} {first : Except String A} {next : A → Except String B} {value : B}
    (ok : (first >>= next) = .ok value) : ∃ middle, first = .ok middle ∧ next middle = .ok value := by
  cases first with
  | error error => simp [bind, Except.bind] at ok
  | ok middle => exact ⟨middle, rfl, ok⟩

/-- What a projection must do with every answer, and which answers its request must offer. -/
structure Answers (interaction : HostApprovalInteraction) (projection : CodexApprovalRequestProjection) :
    Prop where
  parsed : ∀ value response, projection.parseResponse value = .ok response →
    ∃ action ∈ interaction.actions, response = { actionId := action.id } ∧
      (action.effect ≠ .deny → Means interaction value action) ∧
      (hasAction value "decline" ∨ hasAction value "cancel" → action.effect = .deny)
  offered : ∀ action ∈ interaction.actions, ∃ value, Offers projection.request value ∧
    projection.parseResponse value = .ok { actionId := action.id }

/-- One answer has one action. -/
theorem not_denial (accept : hasAction value "accept") :
    ¬ (hasAction value "decline" ∨ hasAction value "cancel") := by
  rintro (denial | denial)
  · exact absurd (accept.symm.trans denial) (by simp [text]; decide)
  · exact absurd (accept.symm.trans denial) (by simp [text]; decide)

theorem choices_answered {input : ProjectionInput} {projection : CodexApprovalRequestProjection}
    (repeats : repeatsEffect input.interaction = true)
    (accepted : projectApprovalChoices input = .ok projection) : Answers input.interaction projection := by
  rw [projectApprovalChoices] at accepted
  split at accepted
  · rename_i allow _ deny _ allows denies
    obtain ⟨serverName, _, rest⟩ := bind_ok accepted
    obtain ⟨title, _, done⟩ := bind_ok rest
    rw [← Except.ok.inj done]
    have denied : deny ∈ input.interaction.actions ∧ deny.effect = .deny := by
      rw [← mem_actionsForEffect, denies]
      exact mem_cons_self
    refine ⟨fun value response ok => ?_, fun action has => ?_⟩
    · rcases parseChoice_ok ok with ⟨accept, chosen, action, has, same⟩ | ⟨denial, is⟩
      · refine ⟨action, has, by rw [same], fun _ => ⟨accept, ?_⟩, fun denial => absurd denial (not_denial accept)⟩
        rw [if_pos repeats, chosen, same]
      · exact ⟨deny, denied.1, is, fun other => absurd denied.2 other, fun _ => denied.2⟩
    · refine ⟨_, .option action.id ?_, ?_⟩
      · rw [optionIds]
        simp [descend, request, List.lookup, flatMap_map, texts]
        exact ⟨action, has, rfl⟩
      · exact parseChoice_option has _
  · simp at accepted

theorem scopes_answered {input : ProjectionInput} {projection : CodexApprovalRequestProjection}
    (distinct : repeatsEffect input.interaction = false)
    (accepted : projectCodexApprovalRequest input = .ok projection) : Answers input.interaction projection := by
  rw [projectCodexApprovalRequest] at accepted
  split at accepted
  · simp at accepted
  · obtain ⟨_, _, rest⟩ := bind_ok accepted
    rw [distinct, if_neg (by simp)] at rest
    obtain ⟨allow, allows, rest⟩ := bind_ok rest
    obtain ⟨allowForSession, sessions, rest⟩ := bind_ok rest
    obtain ⟨allowAlways, always, rest⟩ := bind_ok rest
    obtain ⟨deny, denies, rest⟩ := bind_ok rest
    obtain ⟨serverName, _, rest⟩ := bind_ok rest
    obtain ⟨title, _, rest⟩ := bind_ok rest
    obtain ⟨description, _, done⟩ := bind_ok rest
    rw [← Except.ok.inj done]
    have allowed := (required_only allows allow).2 rfl
    have denied := (required_only denies deny).2 rfl
    have scope {effect : HostApprovalEffect} {action : HostApprovalAction}
        (granted : scopeOf allow allowForSession allowAlways effect = some action) :
        action ∈ input.interaction.actions ∧ action.effect = effect := by
      cases effect with
      | allowOnce => exact Option.some.inj granted ▸ allowed
      | allowForSession => exact (optional_only sessions action).2 granted
      | allowAlways => exact (optional_only always action).2 granted
      | deny => simp [scopeOf] at granted
    refine ⟨fun value response ok => ?_, fun action has => ?_⟩
    · rcases parseScope_ok ok with ⟨accept, effect, action, requested, granted, is⟩ | ⟨denial, is⟩
      · refine ⟨action, (scope granted).1, is, fun _ => ⟨accept, ?_⟩,
          fun denial => absurd denial (not_denial accept)⟩
        rw [distinct, if_neg (by simp), requested, (scope granted).2]
      · exact ⟨deny, denied.1, is, fun other => absurd denied.2 other, fun _ => denied.2⟩
    · cases effect : action.effect with
      | allowOnce =>
        have same := (required_only allows action).1 ⟨has, effect⟩
        subst same
        refine ⟨_, .accept ?_, parseScope_accept action allowForSession allowAlways { actionId := deny.id }⟩
        simp [descend, request, List.lookup]
      | allowForSession =>
        have same := (optional_only sessions action).1 ⟨has, effect⟩
        subst same
        refine ⟨_, .persist (Utf16.ofString "session") ?_,
          parseScope_persist allow (some action) allowAlways { actionId := deny.id } .session⟩
        cases description <;> cases allowAlways <;>
          simp [persistOffers, descend, request, List.lookup, persistValue, texts, text, Persist.text]
      | allowAlways =>
        have same := (optional_only always action).1 ⟨has, effect⟩
        subst same
        refine ⟨_, .persist (Utf16.ofString "always") ?_,
          parseScope_persist allow allowForSession (some action) { actionId := deny.id } .always⟩
        cases description <;> cases allowForSession <;>
          simp [persistOffers, descend, request, List.lookup, persistValue, texts, text, Persist.text]
      | deny =>
        have same := (required_only denies action).1 ⟨has, effect⟩
        subst same
        exact ⟨_, .decline, parseScope_decline allow allowForSession allowAlways { actionId := action.id }⟩

/-- Whatever the client answers, an accepted answer is a declared action, a permission only for the answer
that names it, and each declared action has an offered answer. -/
theorem approval_answered (input : ProjectionInput) (projection : CodexApprovalRequestProjection)
    (accepted : projectCodexApprovalRequest input = .ok projection) :
    (input.interaction.actions.map (·.id)).Nodup ∧
    (∀ value response, projection.parseResponse value = .ok response →
      ∃ action ∈ input.interaction.actions, response = { actionId := action.id } ∧
        (action.effect ≠ .deny → Means input.interaction value action) ∧
        (hasAction value "decline" ∨ hasAction value "cancel" → action.effect = .deny)) ∧
    ∀ action ∈ input.interaction.actions, ∃ value, Offers projection.request value ∧
      projection.parseResponse value = .ok { actionId := action.id } := by
  have whole := accepted
  rw [projectCodexApprovalRequest] at accepted
  split at accepted
  · simp at accepted
  · obtain ⟨_, valid, rest⟩ := bind_ok accepted
    refine ⟨(validateFrom_nodup valid).1, ?_⟩
    cases repeats : repeatsEffect input.interaction with
    | true =>
      rw [repeats, if_pos rfl] at rest
      have answers := choices_answered repeats rest
      exact ⟨answers.parsed, answers.offered⟩
    | false =>
      have answers := scopes_answered repeats whole
      exact ⟨answers.parsed, answers.offered⟩

/-- A request with two actions of one effect. -/
def twoScopes : ProjectionInput :=
  { threadId := Utf16.ofString "t"
    serverName := Utf16.ofString "s"
    interaction := {
      turnId := Utf16.ofString "turn", title := Utf16.ofString "title", description := none
      subjectType := "nativeAction"
      actions := [ { id := Utf16.ofString "once", label := Utf16.ofString "a", effect := .allowOnce },
        { id := Utf16.ofString "file", label := Utf16.ofString "b", effect := .allowAlways },
        { id := Utf16.ofString "all", label := Utf16.ofString "c", effect := .allowAlways },
        { id := Utf16.ofString "no", label := Utf16.ofString "d", effect := .deny }] } }

theorem approval_answered_twoScopes : ∃ projection, projectCodexApprovalRequest twoScopes = .ok projection ∧
    ∃ value, Offers projection.request value ∧
      projection.parseResponse value = .ok { actionId := Utf16.ofString "file" } := by
  refine ⟨_, rfl, (approval_answered twoScopes _ rfl).2.2
    { id := Utf16.ofString "file", label := Utf16.ofString "b", effect := .allowAlways } ?_⟩
  decide

end CodexHost.Guarantees.ApprovalAnswers
