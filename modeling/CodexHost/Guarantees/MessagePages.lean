import CodexHost.Source.HostRuntime.DelegationSnapshot

/-!
# Reading the messages of a child that is still at work

A cursor counts the messages that the reads before it have passed, blank ones too. So the reads deliver
every message that has text, once and in order, as long as no message that was passed while it was
blank gets its text afterwards.
-/
namespace CodexHost.Guarantees.MessagePages
open Foundation Source.SharedContracts Source.ProtocolCore List Utf16 JsonObject
open Source.HostRuntime.DelegationSnapshot

/-- A message of a conversation, which may not have text yet. -/
structure Message where
  id : Utf16
  turnId : Utf16
  role : Role
  text : Utf16
  deriving DecidableEq, Repr

def messageOf (message : DelegationMessage) : Message :=
  ⟨message.id, message.turnId, message.role, message.text⟩

def itemMessage (turnId : Utf16) (item : JsonValue) : Option Message := do
  let item ← isRecord item
  let id ← stringValue (item.get "id")
  if item.hasText "type" "userMessage" then some ⟨id, turnId, .user, textFromUserItem item⟩
  else if item.hasText "type" "agentMessage" then
    match item.get "text" with
    | some (.string text) => some ⟨id, turnId, .agent, text⟩
    | _ => none
  else none

def messagesIn (turn : JsonObject) : List Message :=
  match stringValue (turn.get "id"), turn.get "items" with
  | some turnId, some (.array items) => items.filterMap (itemMessage turnId)
  | _, _ => []

/-- The messages of the Turns, also those without text. -/
def conversation (turns : List JsonObject) : List Message := turns.flatMap messagesIn

/-- A later state of a message: its text may have grown. -/
structure Longer (message later : Message) : Prop where
  id : later.id = message.id
  turnId : later.turnId = message.turnId
  role : later.role = message.role
  text : message.text <+: later.text

/-- A conversation grows at its end: its last message gets more text, and messages follow it. -/
inductive Grows : List Message → List Message → Prop
  | starts (messages : List Message) : Grows [] messages
  | goesOn {last later : Message} (front more : List Message) (longer : Longer last later) :
      Grows (front ++ [last]) (front ++ later :: more)

theorem Longer.refl (message : Message) : Longer message message :=
  ⟨rfl, rfl, rfl, prefix_refl _⟩

theorem Longer.trans {first second third : Message} (before : Longer first second)
    (after : Longer second third) : Longer first third :=
  ⟨after.id.trans before.id, after.turnId.trans before.turnId, after.role.trans before.role,
    before.text.trans after.text⟩

/-- A message does not lose its ink. -/
theorem Longer.inked {message later : Message} (longer : Longer message later)
    (ink : hasInk message.text = true) : hasInk later.text = true := by
  obtain ⟨more, is⟩ := longer.text
  unfold hasInk at ink ⊢
  rw [← is, all_append]
  simp only [Bool.not_eq_true'] at ink ⊢
  rw [ink]
  rfl

theorem forall₂_refl (messages : List Message) : List.Forall₂ Longer messages messages :=
  forall₂_same.mpr fun message _ => Longer.refl message

/-- What is visible of a conversation that grew: the same messages, the last one possibly longer, and
others after them. -/
theorem Grows.visible {before after : List Message} (grows : Grows before after) :
    List.Forall₂ Longer (before.filter (·.text ≠ []))
      ((after.filter (·.text ≠ [])).take (before.filter (·.text ≠ [])).length) := by
  cases grows with
  | starts => simp
  | @goesOn last later front more longer =>
    by_cases empty : last.text = []
    · simpa [empty] using fun message _ _ => Longer.refl message
    · have filled : later.text ≠ [] := fun none =>
        empty (prefix_nil.mp (none ▸ longer.text))
      have size : (front.filter (·.text ≠ []) ++ [last]).length =
          (front.filter (·.text ≠ [])).length + 1 := by simp
      rw [filter_append, filter_append, filter_cons_of_pos (by simpa using empty),
        filter_cons_of_pos (by simpa using filled), filter_nil, size,
        take_length_add_append]
      exact rel_append (forall₂_refl _) (List.Forall₂.cons longer List.Forall₂.nil)

/-- The message that an item shows is the one that it is, if that has text. -/
theorem visibleMessage_map (turn : JsonObject) (turnId : Utf16) (agentItems itemIndex : Nat)
    (item : JsonValue) :
    (visibleMessage turn turnId agentItems itemIndex item).map messageOf =
      (itemMessage turnId item).filter (·.text ≠ []) := by
  unfold visibleMessage itemMessage
  cases isRecord item with
  | none => rfl
  | some members =>
    cases isId : stringValue (get members "id") with
    | none => simp [isId]
    | some id =>
      by_cases user : hasText members "type" "userMessage" = true
      · by_cases empty : textFromUserItem members = [] <;> simp [isId, user, empty, messageOf, Option.filter]
      · by_cases agent : hasText members "type" "agentMessage" = true
        · cases isText : get members "text" with
          | none => simp [isId, user, agent, isText]
          | some value =>
            cases value with
            | string text =>
              by_cases empty : text = [] <;> simp [isId, user, agent, isText, empty, messageOf, Option.filter]
            | _ => simp [isId, user, agent, isText]
        · simp [isId, user, agent]

theorem visibleItems_map (turn : JsonObject) (turnId : Utf16) (agentItems itemIndex : Nat)
    (items : List JsonValue) :
    (visibleItems turn turnId agentItems itemIndex items).map messageOf =
      (items.filterMap (itemMessage turnId)).filter (·.text ≠ []) := by
  induction items generalizing itemIndex with
  | nil => rfl
  | cons item items ih =>
    have first := visibleMessage_map turn turnId agentItems itemIndex item
    rw [visibleItems, map_append, ih, filterMap_cons]
    cases is : itemMessage turnId item with
    | none =>
      rw [is] at first
      have none : visibleMessage turn turnId agentItems itemIndex item = none := by simpa using first
      simp [none]
    | some message =>
      rw [is] at first
      by_cases empty : message.text = []
      · have none : visibleMessage turn turnId agentItems itemIndex item = none := by
          simpa [Option.filter, empty] using first
        simp [none, empty]
      · obtain ⟨shown, isShown, rfl⟩ : ∃ shown,
            visibleMessage turn turnId agentItems itemIndex item = some shown ∧
              messageOf shown = message := by
          simpa [Option.filter, empty] using first
        simp [isShown, empty]

theorem turnMessages_map (turn : JsonObject) :
    (turnMessages turn).map messageOf = (messagesIn turn).filter (·.text ≠ []) := by
  unfold turnMessages messagesIn
  cases stringValue (turn.get "id") with
  | none => rfl
  | some turnId =>
    cases turn.get "items" with
    | none => rfl
    | some items =>
      cases items with
      | array items => exact visibleItems_map turn turnId _ 0 items
      | _ => rfl

/-- The visible messages are those of the conversation that have text. -/
theorem allVisibleMessages_map (turns : List JsonObject) :
    (allVisibleMessages turns).map messageOf = (conversation turns).filter (·.text ≠ []) := by
  induction turns with
  | nil => rfl
  | cons turn turns ih =>
    have visible : allVisibleMessages (turn :: turns) = turnMessages turn ++ allVisibleMessages turns :=
      flatMap_cons
    have spoken : conversation (turn :: turns) = messagesIn turn ++ conversation turns :=
      flatMap_cons
    rw [visible, spoken, map_append, turnMessages_map, ih, filter_append]

/-- Two lists of visible messages, the second a later state of the first. -/
abbrev LaterStates : List DelegationMessage → List DelegationMessage → Prop :=
  List.Forall₂ fun message later => Longer (messageOf message) (messageOf later)

theorem laterStates_grow {before after : List JsonObject}
    (grows : Grows (conversation before) (conversation after)) :
    LaterStates (allVisibleMessages before)
      ((allVisibleMessages after).take (allVisibleMessages before).length) := by
  have visible := grows.visible
  rw [← allVisibleMessages_map, ← allVisibleMessages_map, length_map, ← map_take,
    forall₂_map_left_iff, forall₂_map_right_iff] at visible
  exact visible

section Page

/-- A page holds the messages with ink of those that it passes, up to its limit, and there are more
after it exactly if the limit is exceeded. -/
theorem fillPage_spec (messages : List DelegationMessage) (limit : Nat) :
    (fillPage messages limit).1 = (messages.filter (hasInk ·.text)).take limit ∧
    (fillPage messages limit).1 = (messages.take (fillPage messages limit).2).filter (hasInk ·.text) ∧
    (fillPage messages limit).2 ≤ messages.length ∧
    ((messages.drop (fillPage messages limit).2).any (hasInk ·.text) =
      decide (limit < (messages.filter (hasInk ·.text)).length)) := by
  induction messages generalizing limit with
  | nil => simp [fillPage]
  | cons message rest ih =>
    cases limit with
    | zero =>
      have some : 0 < ((message :: rest).filter (hasInk ·.text)).length ↔
          (message :: rest).any (hasInk ·.text) = true := by
        rw [length_pos_iff_exists_mem, any_eq_true]
        simp only [mem_filter]
      refine ⟨by simp [fillPage], by simp [fillPage], by simp [fillPage], ?_⟩
      rw [fillPage, drop_zero, Bool.eq_iff_iff, decide_eq_true_eq]
      exact some.symm
    | succ limit =>
      by_cases ink : hasInk message.text = true
      · obtain ⟨first, passed, bound, more⟩ := ih limit
        simp only [fillPage, ink, if_true, filter_cons_of_pos, take_succ_cons,
          length_cons, drop_succ_cons, more]
        exact ⟨by rw [first], by rw [← passed], by omega, by rw [decide_eq_decide]; omega⟩
      · obtain ⟨first, passed, bound, more⟩ := ih (limit + 1)
        simp only [fillPage, ink, if_false, filter_cons_of_neg, take_succ_cons,
          length_cons, not_false_eq_true, Bool.false_eq_true, drop_succ_cons, more]
        exact ⟨first, passed, by omega, trivial⟩

variable (cursorFingerprint : Utf16 → Utf16) (threadId : Utf16)

theorem decodeCursor_encodeCursor {offset : Nat} (safe : (offset : Int) ≤ maxSafeInteger) :
    decodeCursor cursorFingerprint threadId (some (encodeCursor cursorFingerprint threadId offset)) =
      .ok offset := by
  let members : JsonObject := [(ofString "version", .number (.integer 1)),
    (ofString "fingerprint", .string (cursorFingerprint threadId)),
    (ofString "offset", .number (.integer offset))]
  have regular : Json.Regular JsonNumber.format (.object members) := by
    have keys : (members.map Prod.fst).Nodup := by
      simp only [members, map_cons, map_nil]
      decide
    exact ⟨keys, JsonNumber.faithful_natural 1, trivial, JsonNumber.faithful_natural offset, trivial⟩
  have read : cursorOffset cursorFingerprint threadId (.object members) = some offset := by
    have version : get members "version" = some (.number (.integer 1)) := rfl
    have fingerprint : get members "fingerprint" =
        some (.string (cursorFingerprint threadId)) := rfl
    have isOffset : get members "offset" = some (.number (.integer offset)) := rfl
    simp [cursorOffset, version, fingerprint, isOffset, safe]
  have written : encodeCursor cursorFingerprint threadId offset = ofString CURSOR_PREFIX ++
      ofText (TextEncoding.base64url (TextEncoding.utf8Bytes
        (Json.write JsonNumber.format (.object members)))) := rfl
  have starts : (ofString CURSOR_PREFIX).isPrefixOf
      (encodeCursor cursorFingerprint threadId offset) = true := by
    rw [written, isPrefixOf_iff_prefix]
    exact prefix_append _ _
  have filled : encodeCursor cursorFingerprint threadId offset ≠ [] := by
    intro empty
    rw [empty] at starts
    exact absurd starts (by decide)
  unfold decodeCursor
  split
  · contradiction
  · next empty => exact absurd (Option.some.inj empty) filled
  · next cursor _ is =>
    cases is
    rw [starts, written, drop_left, text_ofText]
    dsimp only
    rw [TextEncoding.fromBase64url_base64url, TextEncoding.utf8Text_utf8Bytes]
    simp [Json.parse_write JsonNumber.format regular, read]

end Page

/-- A reader of a child's messages: the child's Turns, the cursor of the last read and what the reads
have delivered. -/
structure Reader where
  turns : List JsonObject
  cursor : Option Utf16
  delivered : List DelegationMessage

namespace Reader

def visible (reader : Reader) : List DelegationMessage := allVisibleMessages reader.turns

/-- The read that goes on from the last one; the rest of its input is arbitrary. -/
def request (reader : Reader) (threadId : Utf16) (input : SnapshotInput) : SnapshotInput :=
  { input with threadId := threadId, turns := reader.turns, view := .messages, cursor := reader.cursor }

variable (cursorFingerprint : Utf16 → Utf16) (threadId : Utf16)

def read (reader : Reader) (input : SnapshotInput) : Reader :=
  match projectDelegationThreadSnapshot cursorFingerprint (reader.request threadId input) with
  | .ok snapshot =>
    { reader with
      cursor := some snapshot.nextCursor
      delivered := reader.delivered ++ snapshot.messages.getD [] }
  | .error _ => reader

/-- The reads have delivered the first messages with ink, each once and in order, and the next read
goes on with the others. A message may have got more text after its delivery. -/
def Delivers (reader : Reader) : Prop :=
  ∃ shown rest, reader.visible.filter (hasInk ·.text) = shown ++ rest ∧ LaterStates reader.delivered shown ∧
    ∀ input options, validateReadOptions .messages reader.cursor input.limit = .ok options →
      0 < options.limit ∧
      ∃ snapshot, projectDelegationThreadSnapshot cursorFingerprint (reader.request threadId input) =
          .ok snapshot ∧
        snapshot.messages = some (rest.take options.limit) ∧
        snapshot.hasMore = some (decide (options.limit < rest.length))

end Reader

/-- No message with ink was blank before. -/
def StayBlank (before after : List DelegationMessage) : Prop :=
  ∀ pair ∈ before.zip after, hasInk pair.2.text = true → hasInk pair.1.text = true

variable {before after : List DelegationMessage}

theorem LaterStates.filter_length (later : LaterStates before after) :
    (before.filter (hasInk ·.text)).length ≤ (after.filter (hasInk ·.text)).length := by
  induction later with
  | nil => exact le_rfl
  | @cons message other before after longer later ih =>
    by_cases ink : hasInk message.text = true
    · have inkLater : hasInk other.text = true := longer.inked ink
      simp [ink, inkLater, ih]
    · by_cases inkLater : hasInk other.text = true <;> simp [ink, inkLater] <;> omega

theorem stayBlank_cons {message other : DelegationMessage} : StayBlank (message :: before) (other :: after) ↔
      (hasInk other.text = true → hasInk message.text = true) ∧ StayBlank before after := by
  simp [StayBlank]

/-- The messages with ink stay the same if the blank ones stay blank. -/
theorem LaterStates.filter (later : LaterStates before after) (blank : StayBlank before after) :
    LaterStates (before.filter (hasInk ·.text)) (after.filter (hasInk ·.text)) := by
  induction later with
  | nil => exact List.Forall₂.nil
  | @cons message other before after longer later ih =>
    obtain ⟨first, rest⟩ := stayBlank_cons.mp blank
    by_cases ink : hasInk message.text = true
    · have inkLater : hasInk other.text = true := longer.inked ink
      simp only [filter_cons, ink, inkLater, if_true]
      exact List.Forall₂.cons longer (ih rest)
    · have blankLater : ¬hasInk other.text = true := fun yes => ink (first yes)
      simp only [filter_cons, ink, blankLater, Bool.false_eq_true, if_false]
      exact ih rest

theorem LaterStates.stayBlank (later : LaterStates before after)
    (same : (before.filter (hasInk ·.text)).length = (after.filter (hasInk ·.text)).length) :
    StayBlank before after := by
  induction later with
  | nil => simp [StayBlank]
  | @cons message other before after longer later ih =>
    have grown := LaterStates.filter_length later
    rw [stayBlank_cons]
    by_cases ink : hasInk message.text = true
    · have inkLater : hasInk other.text = true := longer.inked ink
      simp only [filter_cons, ink, inkLater, if_true, length_cons, Nat.add_right_cancel_iff] at same
      exact ⟨fun _ => ink, ih same⟩
    · by_cases inkLater : hasInk other.text = true
      · simp only [filter_cons, ink, inkLater, if_true, Bool.false_eq_true, if_false, length_cons] at same
        omega
      · simp only [filter_cons, ink, inkLater, Bool.false_eq_true, if_false] at same
        exact ⟨fun yes => absurd yes inkLater, ih same⟩

theorem LaterStates.trans {first second third : List DelegationMessage}
    (before : LaterStates first second) (after : LaterStates second third) :
    LaterStates first third := by
  induction before generalizing third with
  | nil => exact after
  | cons longer _ ih =>
    cases after with
    | cons longer' later => exact List.Forall₂.cons (longer.trans longer') (ih later)

theorem LaterStates.refl (messages : List DelegationMessage) : LaterStates messages messages :=
  forall₂_same.mpr fun message _ => Longer.refl (messageOf message)

section Run
variable (cursorFingerprint : Utf16 → Utf16) (threadId : Utf16)

/-- The reads of a child whose conversation grows at its end. Arrays have fewer than `2 ^ 32` elements.
`Allowed` restricts the growth. -/
inductive Run (Allowed : Reader → List JsonObject → Prop) : Reader → Prop
  | start : Run Allowed ⟨[], none, []⟩
  | grow {reader : Reader} {turns : List JsonObject} (run : Run Allowed reader)
      (grows : Grows (conversation reader.turns) (conversation turns))
      (fits : (allVisibleMessages turns).length < 2 ^ 32) (allowed : Allowed reader turns) :
      Run Allowed { reader with turns := turns }
  | read {reader : Reader} (run : Run Allowed reader) (input : SnapshotInput) :
      Run Allowed (reader.read cursorFingerprint threadId input)

/-- The messages that the reads have passed while they were blank stay blank. -/
def PassedStayBlank (reader : Reader) (turns : List JsonObject) : Prop :=
  ∀ passed, decodeCursor cursorFingerprint threadId reader.cursor = .ok passed →
    StayBlank (reader.visible.take passed) ((allVisibleMessages turns).take passed)

/-- How far the reads have come. -/
structure Passed (reader : Reader) (passed : Nat) : Prop where
  cursor : decodeCursor cursorFingerprint threadId reader.cursor = .ok passed
  within : passed ≤ reader.visible.length
  fits : reader.visible.length < 2 ^ 32
  delivered : LaterStates reader.delivered ((reader.visible.take passed).filter (hasInk ·.text))

variable {cursorFingerprint threadId}

theorem validateReadOptions_messages {cursor : Option Utf16} {limit : Option JsonNumber}
    {options : ReadOptions} (valid : validateReadOptions .messages cursor limit = .ok options) :
    options.view = .messages ∧ options.cursor = cursor.filter (· ≠ []) ∧ 0 < options.limit := by
  unfold validateReadOptions at valid
  rw [if_neg (by simp)] at valid
  split at valid
  · split at valid
    · cases valid
    · cases valid
      refine ⟨rfl, rfl, ?_⟩
      dsimp only
      omega
  · cases valid

theorem decodeCursor_filter (cursor : Option Utf16) :
    decodeCursor cursorFingerprint threadId (cursor.filter (· ≠ [])) =
      decodeCursor cursorFingerprint threadId cursor := by
  cases cursor with
  | none => rfl
  | some text =>
    cases text with
    | nil => rfl
    | cons unit rest => rfl

theorem validateReadOptions_filter (cursor : Option Utf16) (limit : Option JsonNumber) :
    validateReadOptions .messages (cursor.filter (· ≠ [])) limit =
      validateReadOptions .messages cursor limit := by
  cases cursor with
  | none => rfl
  | some text =>
    cases text with
    | nil => rfl
    | cons unit rest => rfl

/-- What a read answers, by the offset of its cursor. -/
theorem read_answers {reader : Reader} {passed : Nat} {input : SnapshotInput} {options : ReadOptions}
    (at_ : decodeCursor cursorFingerprint threadId reader.cursor = .ok passed)
    (valid : validateReadOptions .messages reader.cursor input.limit = .ok options) :
    ∃ snapshot, projectDelegationThreadSnapshot cursorFingerprint (reader.request threadId input) =
        .ok snapshot ∧
      snapshot.messages = some (fillPage (reader.visible.drop passed) options.limit).1 ∧
      snapshot.hasMore = some ((reader.visible.drop
        (passed + (fillPage (reader.visible.drop passed) options.limit).2)).any (hasInk ·.text)) ∧
      snapshot.nextCursor = encodeCursor cursorFingerprint threadId
        (passed + (fillPage (reader.visible.drop passed) options.limit).2) := by
  obtain ⟨view, cursor, -⟩ := validateReadOptions_messages valid
  have asked : validateReadOptions (reader.request threadId input).view
      ((reader.request threadId input).cursor.filter (· ≠ [])) (reader.request threadId input).limit =
        .ok options := (validateReadOptions_filter reader.cursor input.limit).trans valid
  have decoded : decodeCursor cursorFingerprint (reader.request threadId input).threadId
      options.cursor = .ok passed := by
    rw [cursor, decodeCursor_filter]
    exact at_
  unfold projectDelegationThreadSnapshot
  simp only [asked, bind, Except.bind, view, if_true, decoded, pure, Except.pure]
  exact ⟨_, rfl, rfl, rfl, rfl⟩

variable {reader : Reader}

theorem read_refused {input : SnapshotInput} {error : InvalidArgument}
    (invalid : validateReadOptions .messages reader.cursor input.limit = .error error) :
    reader.read cursorFingerprint threadId input = reader := by
  have asked : validateReadOptions (reader.request threadId input).view
      ((reader.request threadId input).cursor.filter (· ≠ [])) (reader.request threadId input).limit =
        .error error := (validateReadOptions_filter reader.cursor input.limit).trans invalid
  unfold Reader.read projectDelegationThreadSnapshot
  simp only [asked, bind, Except.bind]

variable {turns : List JsonObject} {passed : Nat}

/-- What the reads have passed shows again after the conversation grew. -/
theorem visible_grow (within : passed ≤ reader.visible.length)
    (grows : Grows (conversation reader.turns) (conversation turns)) :
    LaterStates (reader.visible.take passed) ((allVisibleMessages turns).take passed) ∧
      passed ≤ (allVisibleMessages turns).length := by
  have later : LaterStates reader.visible ((allVisibleMessages turns).take reader.visible.length) :=
    laterStates_grow grows
  have size := later.length_eq
  rw [length_take] at size
  refine ⟨?_, ?_⟩
  · have both := forall₂_take passed later
    rwa [take_take, min_eq_left within] at both
  · omega

section
variable (at_ : Passed cursorFingerprint threadId reader passed)
include at_

section
variable (grows : Grows (conversation reader.turns) (conversation turns))
include grows

/-- After a growth step the reads have delivered what they passed exactly if the blank messages among
that stay blank. -/
theorem grow_delivered_iff :
    LaterStates reader.delivered (((allVisibleMessages turns).take passed).filter (hasInk ·.text)) ↔
      PassedStayBlank cursorFingerprint threadId reader turns := by
  obtain ⟨later, -⟩ := visible_grow at_.within grows
  have kept : PassedStayBlank cursorFingerprint threadId reader turns ↔
      StayBlank (reader.visible.take passed) ((allVisibleMessages turns).take passed) := by
    simp [PassedStayBlank, at_.cursor]
  rw [kept]
  constructor
  · intro delivered
    exact LaterStates.stayBlank later (at_.delivered.length_eq.symm.trans delivered.length_eq)
  · intro blank
    exact LaterStates.trans at_.delivered (LaterStates.filter later blank)

theorem passed_grow
    (fits : (allVisibleMessages turns).length < 2 ^ 32)
    (kept : PassedStayBlank cursorFingerprint threadId reader turns) :
    Passed cursorFingerprint threadId { reader with turns := turns } passed :=
  ⟨at_.cursor, (visible_grow at_.within grows).2, fits, (grow_delivered_iff at_ grows).mpr kept⟩

end

theorem passed_read (input : SnapshotInput) :
    ∃ next, Passed cursorFingerprint threadId (reader.read cursorFingerprint threadId input) next := by
  cases valid : validateReadOptions .messages reader.cursor input.limit with
  | error error =>
    rw [read_refused valid]
    exact ⟨passed, at_⟩
  | ok options =>
    obtain ⟨snapshot, answers, messages, -, next⟩ := read_answers at_.cursor valid
    obtain ⟨-, page, bound, -⟩ := fillPage_spec (reader.visible.drop passed) options.limit
    generalize (fillPage (reader.visible.drop passed) options.limit).2 = count at *
    have size : (reader.visible.drop passed).length = reader.visible.length - passed :=
      length_drop
    have within := at_.within
    have fits := at_.fits
    have is : reader.read cursorFingerprint threadId input = { reader with
          cursor := some (encodeCursor cursorFingerprint threadId (passed + count))
          delivered := reader.delivered ++
            ((reader.visible.drop passed).take count).filter (hasInk ·.text) } := by
      unfold Reader.read
      rw [answers]
      simp only [messages, next, page, Option.getD_some]
    have safe : ((passed + count : Nat) : Int) ≤ maxSafeInteger := by
      unfold maxSafeInteger
      omega
    rw [is]
    refine ⟨passed + count, decodeCursor_encodeCursor cursorFingerprint threadId safe, ?_, fits, ?_⟩
    · change passed + count ≤ reader.visible.length
      omega
    · change LaterStates _ ((reader.visible.take (passed + count)).filter (hasInk ·.text))
      rw [take_add, filter_append]
      exact rel_append at_.delivered (LaterStates.refl _)

end

/-- In a run that keeps the passed blank messages blank, the cursor says what is delivered. -/
theorem run_passed
    (run : Run cursorFingerprint threadId (PassedStayBlank cursorFingerprint threadId) reader) :
    ∃ passed, Passed cursorFingerprint threadId reader passed := by
  induction run with
  | start => exact ⟨0, rfl, Nat.zero_le _, by decide, List.Forall₂.nil⟩
  | grow run grows fits kept ih =>
    obtain ⟨passed, at_⟩ := ih
    exact ⟨passed, passed_grow at_ grows fits kept⟩
  | read run input ih =>
    obtain ⟨passed, at_⟩ := ih
    exact passed_read at_ input

theorem passed_delivers (at_ : Passed cursorFingerprint threadId reader passed) :
    reader.Delivers cursorFingerprint threadId := by
  refine ⟨(reader.visible.take passed).filter (hasInk ·.text),
    (reader.visible.drop passed).filter (hasInk ·.text), ?_, at_.delivered, ?_⟩
  · rw [← filter_append, take_append_drop]
  · intro input options valid
    obtain ⟨-, -, positive⟩ := validateReadOptions_messages valid
    obtain ⟨snapshot, answers, messages, more, -⟩ := read_answers at_.cursor valid
    refine ⟨positive, snapshot, answers, ?_, ?_⟩
    · rw [messages, (fillPage_spec _ _).1]
    · rw [more, ← drop_drop, (fillPage_spec _ _).2.2.2]

end Run

/-- A conversation of one Agent message. -/
def agentTurns (text : String) : List JsonObject :=
  [[(Utf16.ofString "id", .string (Utf16.ofString "turn")), (Utf16.ofString "items", .array [.object
      [(Utf16.ofString "type", .string (Utf16.ofString "agentMessage")),
        (Utf16.ofString "id", .string (Utf16.ofString "message")),
        (Utf16.ofString "text", .string (Utf16.ofString text))]])]]

def sampleInput : SnapshotInput :=
  ⟨[], [], [], [], true, .messages, none, none⟩

def reader (text : String) : Reader := ⟨agentTurns text, none, []⟩

end CodexHost.Guarantees.MessagePages
