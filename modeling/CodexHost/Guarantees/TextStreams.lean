import CodexHost.Source.ProtocolCore.CodexTextStreams

/-!
# Text streams

What is sent of one textual Item is a start, deltas and completions, and the completions have the text of
the start and the deltas together. What has been shown is carried from event to event: the published text of
an agent message, the display text of reasoning.
-/
namespace CodexHost.Guarantees.TextStreams
open Foundation Source.HarnessAdapter.LocalMediaMarkdown OrderedMap List Option
  CodexHost.Source.ProtocolCore.CodexTextStreams
open Source.ProtocolCore.CodexUiProjector (HostItemId HostItemType)

section Streams

/-- The notification has text of this Item on the wire. -/
def about (lane : Lane) (itemId : String) : Notification → Bool
  | .itemStarted lane' itemId' _ | .delta lane' itemId' _ | .itemCompleted lane' itemId' _ =>
    lane' = lane && itemId' = itemId
  | .summaryPartAdded _ => false

def stream (lane : Lane) (itemId : String) (wire : List Notification) : List Notification :=
  wire.filter (about lane itemId)

theorem stream_append (lane : Lane) (itemId : String) (wire more : List Notification) :
    stream lane itemId (wire ++ more) = stream lane itemId wire ++ stream lane itemId more :=
  filter_append ..

/-- The notifications of an Item that shows this text now. -/
structure Told (lane : Lane) (itemId : String) (shown : Utf16) (done : Bool) (sent : List Notification) :
    Prop where
  silent : shown = [] → sent = []
  told : shown ≠ [] → ∃ (first : Utf16) (deltas : List Utf16) (ends : Nat),
    sent = .itemStarted lane itemId first :: (deltas.map (.delta lane itemId) ++
      List.replicate ends (.itemCompleted lane itemId shown)) ∧
    first ++ deltas.flatten = shown ∧ (done = false → ends = 0)

variable {lane : Lane} {itemId : String} {shown more : Utf16} {done : Bool} {sent : List Notification}

theorem Told.unsent (done : Bool) : Told lane itemId [] done [] := ⟨fun _ => rfl, fun some => absurd rfl some⟩

theorem Told.opened (some : shown ≠ []) : Told lane itemId shown false [.itemStarted lane itemId shown] where
  silent none := absurd none some
  told _ := ⟨shown, [], 0, rfl, append_nil _, fun _ => rfl⟩

theorem Told.first (some : more ≠ []) :
    Told lane itemId more false [.itemStarted lane itemId [], .delta lane itemId more] where
  silent none := absurd none some
  told _ := ⟨[], [more], 0, rfl, by simp, fun _ => rfl⟩

theorem Told.delta (told : Told lane itemId shown false sent) (some : shown ≠ []) (more : Utf16) :
    Told lane itemId (shown ++ more) false (sent ++ [.delta lane itemId more]) where
  silent none := absurd (append_eq_nil_iff.mp none).1 some
  told _ := by
    obtain ⟨first, deltas, ends, rfl, text, none⟩ := told.told some
    have none := none rfl
    subst none
    refine ⟨first, deltas ++ [more], 0, by simp, ?_, fun _ => rfl⟩
    rw [flatten_append, ← append_assoc, text, flatten_singleton]

/-- What more text is sent with, started or not. -/
theorem Told.grown {wire : Bool} {first : Utf16} (told : Told lane itemId shown false sent)
    (started : wire = true ↔ shown ≠ []) (some : more ≠ []) (empty : shown = [] → first = []) :
    Told lane itemId (shown ++ more) false (sent ++ if wire then [.delta lane itemId more]
      else [.itemStarted lane itemId first, .delta lane itemId more]) := by
  cases wire with
  | true => exact told.delta (started.mp rfl) more
  | false =>
    have none : shown = [] := not_not.mp fun some => Bool.false_ne_true (started.mpr some)
    rw [told.silent none, empty none, none]
    exact Told.first some

theorem Told.completed (told : Told lane itemId shown done sent) (some : shown ≠ []) :
    Told lane itemId shown true (sent ++ [.itemCompleted lane itemId shown]) where
  silent none := absurd none some
  told _ := by
    obtain ⟨first, deltas, ends, rfl, text, -⟩ := told.told some
    refine ⟨first, deltas, ends + 1, ?_, text, nofun⟩
    rw [cons_append, append_assoc, replicate_succ']

theorem Told.settled (told : Told lane itemId shown done sent) (none : shown = []) :
    Told lane itemId shown true sent where
  silent := told.silent
  told some := absurd none some

end Streams

variable {item : HostItem} {projected : ProjectedItem}

section Items

/-- The Item sends the notifications with this type and ID. -/
def owns (item : HostItem) (lane : Lane) (itemId : String) : Prop :=
  match item.type with
  | .agentMessage => lane = .agentMessage ∧ itemId = item.itemId
  | .reasoning => (lane = .reasoning ∧ itemId = reasoningPreviewItemId item.itemId) ∨
      (lane = .commandExecution ∧ itemId = item.itemId)
  | _ => False

/-- What has been sent of a textual Item. -/
def ItemTold (wire : List Notification) (projected : ProjectedItem) : Prop :=
  let id := projected.item.itemId
  match projected.item.type with
  | .agentMessage => ∃ media, projected.media = some media ∧ (projected.wireStarted = true ↔ media.text ≠ []) ∧
      Told .agentMessage id media.text projected.completed (stream .agentMessage id wire)
  | .reasoning =>
    let text := reasoningDisplayText projected.item.text
    (projected.wireStarted = true ↔ text ≠ []) ∧
      Told .reasoning (reasoningPreviewItemId id) text projected.completed
        (stream .reasoning (reasoningPreviewItemId id) wire) ∧
      Told .commandExecution id text projected.completed (stream .commandExecution id wire)
  | _ => True

/-- No two Items send with one type and ID. -/
theorem owner_unique {item item' : HostItem} {lane : Lane} {itemId : String} (owner : owns item lane itemId)
    (owner' : owns item' lane itemId) : item.itemId = item'.itemId := by
  rw [owns] at owner owner'
  split at owner
  · split at owner'
    · exact owner.2.symm.trans owner'.2
    · rcases owner' with ⟨rfl, -⟩ | ⟨rfl, -⟩ <;> cases owner.1
    · cases owner'
  · split at owner'
    · rcases owner with ⟨rfl, -⟩ | ⟨rfl, -⟩ <;> cases owner'.1
    · rcases owner with ⟨rfl, preview⟩ | ⟨rfl, is⟩
      · rcases owner' with ⟨-, preview'⟩ | ⟨other, -⟩
        · exact (String.append_left_inj _).mp (preview.symm.trans preview')
        · cases other
      · rcases owner' with ⟨other, -⟩ | ⟨-, is'⟩
        · cases other
        · exact is.symm.trans is'
    · cases owner'
  · cases owner

theorem owns_congr {item item' : HostItem} (types : item.type = item'.type) (ids : item.itemId = item'.itemId)
    (lane : Lane) (itemId : String) : owns item lane itemId ↔ owns item' lane itemId := by
  rw [owns, owns, types, ids]

structure Inv (s : State) : Prop where
  items : ∀ id projected, s.items.get? id = some projected →
    projected.item.itemId = id ∧ ItemTold s.wire projected
  unowned : ∀ lane itemId, (∀ id projected, s.items.get? id = some projected →
    ¬ owns projected.item lane itemId) → stream lane itemId s.wire = []

variable {s s' : State}

theorem Inv.initial : Inv initial where
  items _ _ is := by cases is
  unowned _ _ _ := rfl

/-- The Item owns all that is sent. -/
def Owned (item : HostItem) (sent : List Notification) : Prop :=
  ∀ notification ∈ sent, ∀ lane itemId, about lane itemId notification = true → owns item lane itemId

theorem stream_unowned {sent : List Notification} (owned : Owned item sent) {lane : Lane}
    {itemId : String} (other : ¬ owns item lane itemId) : stream lane itemId sent = [] := by
  rw [stream, filter_eq_nil_iff]
  exact fun notification member is => other (owned notification member lane itemId is)

/-- What an Item sends leaves the streams of the other Items as they are. -/
theorem ItemTold.other {wire sent : List Notification}
    (told : ItemTold wire projected) (owned : Owned item sent)
    (apart : projected.item.itemId ≠ item.itemId) : ItemTold (wire ++ sent) projected := by
  have same : ∀ lane itemId, owns projected.item lane itemId →
      stream lane itemId (wire ++ sent) = stream lane itemId wire := by
    intro lane itemId owner
    rw [stream_append, stream_unowned owned fun owner' => apart (owner_unique owner owner'), append_nil]
  rw [ItemTold] at told ⊢
  split
  · rename_i type
    rw [type] at told
    obtain ⟨media, is, started, told⟩ := told
    refine ⟨media, is, started, ?_⟩
    rw [same _ _ (by rw [owns, type]; exact ⟨rfl, rfl⟩)]
    exact told
  · rename_i type
    rw [type] at told
    obtain ⟨started, preview, twin⟩ := told
    refine ⟨started, ?_, ?_⟩
    · rw [same _ _ (by rw [owns, type]; exact .inl ⟨rfl, rfl⟩)]
      exact preview
    · rw [same _ _ (by rw [owns, type]; exact .inr ⟨rfl, rfl⟩)]
      exact twin
  · trivial

theorem Inv.sent (inv : Inv s) {sent : List Notification} (owned : Owned projected.item sent)
    (before : ∀ previous, s.items.get? projected.item.itemId = some previous →
      previous.item.type = projected.item.type)
    (told : ItemTold (s.wire ++ sent) projected) : Inv (s.send projected sent) where
  items id other is := by
    change (s.items.set projected.item.itemId projected).get? id = some other at is
    rw [get?_set] at is
    split at is
    · rename_i same
      cases is
      exact ⟨same.symm, told⟩
    · rename_i apart
      obtain ⟨isId, told⟩ := inv.items id other is
      exact ⟨isId, told.other owned (isId ▸ apart)⟩
  unowned lane itemId none := by
    change stream lane itemId (s.wire ++ sent) = []
    have new : ¬ owns projected.item lane itemId :=
      none projected.item.itemId projected (get?_set_self ..)
    rw [stream_append, stream_unowned owned new, append_nil]
    refine inv.unowned lane itemId fun id other is owner => ?_
    by_cases same : id = projected.item.itemId
    · subst same
      have ids := (inv.items _ other is).1
      exact new ((owns_congr (before other is) ids lane itemId).mp owner)
    · refine none id other ?_ owner
      change (s.items.set projected.item.itemId projected).get? id = some other
      rw [get?_set_of_ne _ _ same, is]

theorem Inv.fresh (inv : Inv s) (absent : s.items.get? item.itemId = none) {lane : Lane}
    {itemId : String} (owner : owns item lane itemId) : stream lane itemId s.wire = [] := by
  refine inv.unowned lane itemId fun id other is owner' => ?_
  rw [owner_unique owner owner', (inv.items id other is).1, is] at absent
  cases absent

end Items

theorem display_prefix (text more : Utf16) :
    reasoningDisplayText text <+: reasoningDisplayText (text ++ more) := by
  induction more using List.reverseRecOn with
  | nil => rw [append_nil]
  | append_singleton more unit ih =>
    rw [reasoningDisplayText, reasoningDisplayText, ← append_assoc, rdropWhile_concat]
    split
    · exact ih
    · exact (List.rdropWhile_prefix _ _).trans ⟨more ++ [unit], by simp⟩

theorem display_append (text more : Utf16) : reasoningDisplayText (text ++ more) =
    reasoningDisplayText text ++
      (reasoningDisplayText (text ++ more)).drop (reasoningDisplayText text).length := by
  obtain ⟨rest, is⟩ := display_prefix text more
  rw [← is, drop_left]

section
variable (project : ProjectLocalMedia)
include project

/-- Each call of the stream returns what it publishes. -/
theorem advance_text (hold : Bool) (media : LocalMediaMarkdownStream) :
    (media.advance project hold).2.text = media.text ++ (media.advance project hold).1 := by
  rw [LocalMediaMarkdownStream.advance]
  split <;> rfl

theorem append_text (text : Utf16) (media : LocalMediaMarkdownStream) :
    (media.append project text).2.text = media.text ++ (media.append project text).1 :=
  advance_text project true _

theorem flush_text (media : LocalMediaMarkdownStream) :
    (media.flush project).2.text = media.text ++ (media.flush project).1 :=
  advance_text project false media

end

section Steps
variable {project : ProjectLocalMedia} {s s' : State}

@[simp] theorem owned_nil (item : HostItem) : Owned item [] := nofun

theorem owned_cons {notification : Notification} {sent : List Notification} :
    Owned item (notification :: sent) ↔
      (∀ lane itemId, about lane itemId notification = true → owns item lane itemId) ∧ Owned item sent :=
  forall_mem_cons

variable {text : Utf16}

@[simp] theorem owned_started {lane : Lane} {itemId : String} {sent : List Notification} :
    Owned item (.itemStarted lane itemId text :: sent) ↔ owns item lane itemId ∧ Owned item sent := by
  simp [owned_cons, about]

@[simp] theorem owned_delta {lane : Lane} {itemId : String} {sent : List Notification} :
    Owned item (.delta lane itemId text :: sent) ↔ owns item lane itemId ∧ Owned item sent := by
  simp [owned_cons, about]

@[simp] theorem owned_completed {lane : Lane} {itemId : String} {sent : List Notification} :
    Owned item (.itemCompleted lane itemId text :: sent) ↔ owns item lane itemId ∧ Owned item sent := by
  simp [owned_cons, about]

@[simp] theorem owned_part {itemId : String} {sent : List Notification} :
    Owned item (.summaryPartAdded itemId :: sent) ↔ Owned item sent := by
  simp [owned_cons, about]

/-- A delta of the preview, whether or not its part has started. -/
@[simp] theorem stream_reasoningDelta (lane : Lane) (itemId : String) (projected : ProjectedItem)
    (delta : Utf16) : (reasoningDelta projected delta).filter (about lane itemId) =
      [Notification.delta .reasoning (reasoningPreviewItemId projected.item.itemId) delta].filter
        (about lane itemId) := by
  rw [reasoningDelta]
  split <;> simp [about]

@[simp] theorem owned_reasoningDelta {delta : Utf16} : Owned item (reasoningDelta projected delta) ↔
      owns item .reasoning (reasoningPreviewItemId projected.item.itemId) := by
  rw [reasoningDelta]
  split <;> simp

theorem owns_message (type : item.type = .agentMessage) : owns item .agentMessage item.itemId := by
  rw [owns, type]
  exact ⟨rfl, rfl⟩

theorem owns_preview (type : item.type = .reasoning) :
    owns item .reasoning (reasoningPreviewItemId item.itemId) := by
  rw [owns, type]
  exact .inl ⟨rfl, rfl⟩

theorem owns_twin (type : item.type = .reasoning) : owns item .commandExecution item.itemId := by
  rw [owns, type]
  exact .inr ⟨rfl, rfl⟩

theorem itemTold_message {wire : List Notification} (type : projected.item.type = .agentMessage) :
    ItemTold wire projected ↔ ∃ media, projected.media = some media ∧
      (projected.wireStarted = true ↔ media.text ≠ []) ∧ Told .agentMessage projected.item.itemId media.text
        projected.completed (stream .agentMessage projected.item.itemId wire) := by
  rw [ItemTold, type]

theorem itemTold_reasoning {wire : List Notification} (type : projected.item.type = .reasoning) :
    ItemTold wire projected ↔ (projected.wireStarted = true ↔ reasoningDisplayText projected.item.text ≠ []) ∧
      Told .reasoning (reasoningPreviewItemId projected.item.itemId) (reasoningDisplayText projected.item.text)
        projected.completed (stream .reasoning (reasoningPreviewItemId projected.item.itemId) wire) ∧
      Told .commandExecution projected.item.itemId (reasoningDisplayText projected.item.text)
        projected.completed (stream .commandExecution projected.item.itemId wire) := by
  rw [ItemTold, type]

theorem itemTold_other (message : projected.item.type ≠ .agentMessage)
    (reasoning : projected.item.type ≠ .reasoning) (wire : List Notification) : ItemTold wire projected := by
  rw [ItemTold]
  split
  · rename_i type
    exact absurd type message
  · rename_i type
    exact absurd type reasoning
  · trivial

/-- The Item after an event that shows nothing more of it. -/
theorem Inv.quiet (inv : Inv s) (before : ∀ previous, s.items.get? projected.item.itemId = some previous →
      previous.item.type = projected.item.type)
    (told : ItemTold s.wire projected) : Inv (s.send projected []) :=
  inv.sent (owned_nil _) before (by rwa [append_nil])

theorem Inv.started (inv : Inv s) (started : startItem project s item = some s') : Inv s' := by
  rw [startItem] at started
  split at started
  · cases started
  · split at started
    · cases started
    · rename_i fresh
      have absent : s.items.get? item.itemId = none := by simpa using fresh
      have before : ∀ previous, s.items.get? item.itemId = some previous → previous.item.type = item.type := by
        intro previous is
        rw [absent] at is
        cases is
      have silent : ∀ lane itemId, owns item lane itemId → stream lane itemId s.wire = [] :=
        fun _ _ owner => inv.fresh absent owner
      by_cases message : item.type = .agentMessage
      · have nothing := silent .agentMessage item.itemId (owns_message message)
        simp only [message, if_true] at started
        split at started
        · rename_i empty
          cases started
          refine inv.quiet before ((itemTold_message message).mpr ⟨_, rfl, ?_, ?_⟩)
          · simp [length_eq_zero_iff.mp empty]
          · rw [nothing, length_eq_zero_iff.mp empty]
            exact Told.unsent _
        · rename_i full
          have full : (createAgentMedia project item.text).text ≠ [] :=
            fun none => full (length_eq_zero_iff.mpr none)
          cases started
          refine inv.sent ?_ before ((itemTold_message message).mpr ⟨_, rfl, by simp [full], ?_⟩)
          · simp [owns_message message]
          · rw [stream_append, nothing]
            simpa [stream, about] using Told.opened full
      · by_cases reasoning : item.type = .reasoning
        · have noPreview := silent .reasoning _ (owns_preview reasoning)
          have noTwin := silent .commandExecution item.itemId (owns_twin reasoning)
          simp only [reasoning] at started
          split at started
          · rename_i empty
            have empty := length_eq_zero_iff.mp empty
            cases started
            refine inv.quiet before ((itemTold_reasoning reasoning).mpr ⟨by simp [empty], ?_, ?_⟩)
            · rw [noPreview, empty]
              exact Told.unsent _
            · rw [noTwin, empty]
              exact Told.unsent _
          · rename_i full
            have full : reasoningDisplayText item.text ≠ [] :=
              fun none => full (length_eq_zero_iff.mpr none)
            cases started
            refine inv.sent ?_ before ((itemTold_reasoning reasoning).mpr ⟨by simp [full], ?_, ?_⟩)
            · simp [owns_preview reasoning, owns_twin reasoning]
            · rw [stream_append, noPreview]
              simpa [stream, about] using Told.first full
            · rw [stream_append, noTwin]
              simpa [stream, about] using Told.first full
        · have quiet : some (s.send ⟨item, none, false, false, false⟩ []) = some s' := by
            rw [← started]
            cases type : item.type with
            | agentMessage => exact absurd type message
            | reasoning => exact absurd type reasoning
            | _ => simp
          cases quiet
          exact inv.quiet before (itemTold_other message reasoning _)

theorem activeItem_spec {itemId : HostItemId} (active : s.activeItem itemId = some projected) :
    s.items.get? itemId = some projected ∧ projected.completed = false := by
  obtain ⟨is, open_⟩ := filter_eq_some_iff.mp active
  exact ⟨is, by simpa using open_⟩

/-- An update keeps the identity of the Item, and only textual Items take text. -/
theorem applyUpdate_spec {item next : HostItem} {update : HostItemUpdate}
    (applied : applyUpdate item update = some next) :
    next.itemId = item.itemId ∧ next.type = item.type ∧
      ((∃ text, update = .textAppend text ∧ next.text = item.text ++ text ∧
          (item.type = .agentMessage ∨ item.type = .reasoning)) ∨
        (∀ text, update ≠ .textAppend text) ∧ item.type ≠ .agentMessage ∧ item.type ≠ .reasoning) := by
  cases update with
  | textAppend text =>
    rw [applyUpdate] at applied
    split at applied
    · rename_i textual
      cases applied
      exact ⟨rfl, rfl, .inl ⟨text, rfl, rfl, textual⟩⟩
    · cases applied
  | _ =>
    simp only [applyUpdate, ite_none_right_eq_some, some.injEq] at applied
    obtain ⟨type, rfl⟩ := applied
    exact ⟨rfl, rfl, .inr ⟨by simp, by rw [type]; decide, by rw [type]; decide⟩⟩

section
variable (inv : Inv s)
include inv

theorem Inv.same_type {itemId : HostItemId}
    (active : s.activeItem itemId = some projected) {type : HostItemType} (is : projected.item.type = type) :
    ∀ previous, s.items.get? projected.item.itemId = some previous → previous.item.type = type := by
  intro previous has
  obtain ⟨here, -⟩ := activeItem_spec active
  rw [(inv.items itemId projected here).1, here] at has
  cases has
  exact is

theorem Inv.updatedMessage {itemId : HostItemId}
    (active : s.activeItem itemId = some projected) (type : projected.item.type = .agentMessage)
    (updated : updateItem project s itemId (.textAppend text) = some s') : Inv s' := by
  have before := inv.same_type active type
  obtain ⟨is, open_⟩ := activeItem_spec active
  obtain ⟨rfl, told⟩ := inv.items itemId projected is
  obtain ⟨media, hasMedia, started, told⟩ := (itemTold_message type).mp told
  simp only [updateItem, active, bind_some, applyUpdate, type, true_or, if_true, hasMedia] at updated
  split at updated
  · cases updated
    exact inv.quiet before ((itemTold_message rfl).mpr ⟨media, rfl, started, told⟩)
  · have grows := append_text project text media
    split at updated
    · rename_i empty
      have same : (media.append project text).2.text = media.text := by
        rw [grows, length_eq_zero_iff.mp empty, append_nil]
      cases updated
      refine inv.quiet before ((itemTold_message rfl).mpr ⟨_, rfl, ?_, ?_⟩)
      · rw [same]
        exact started
      · rw [same]
        exact told
    · rename_i full
      have full : (media.append project text).1 ≠ [] := fun none => full (length_eq_zero_iff.mpr none)
      cases updated
      refine inv.sent ?_ before ((itemTold_message rfl).mpr ⟨_, rfl, by simp [grows, full], ?_⟩)
      · split <;> simp [owns]
      · rw [open_] at told ⊢
        rw [stream_append, grows]
        cases wire : projected.wireStarted <;>
          simpa [stream, about, wire] using told.grown started full id

theorem Inv.updatedReasoning {itemId : HostItemId}
    (active : s.activeItem itemId = some projected) (type : projected.item.type = .reasoning)
    (updated : updateItem project s itemId (.textAppend text) = some s') : Inv s' := by
  have before := inv.same_type active type
  obtain ⟨is, open_⟩ := activeItem_spec active
  obtain ⟨rfl, told⟩ := inv.items itemId projected is
  obtain ⟨started, preview, twin⟩ := (itemTold_reasoning type).mp told
  simp only [updateItem, active, bind_some, applyUpdate, type, or_true, if_true] at updated
  have grows := display_append projected.item.text text
  split at updated
  · rename_i empty
    have same : reasoningDisplayText (projected.item.text ++ text) = reasoningDisplayText projected.item.text := by
      rw [length_eq_zero_iff.mp empty, append_nil]
    cases updated
    refine inv.quiet before ((itemTold_reasoning rfl).mpr ?_)
    rw [same]
    exact ⟨started, preview, twin⟩
  · generalize (reasoningDisplayText (projected.item.text ++ text)).drop
      (reasoningDisplayText projected.item.text).length = delta at grows updated
    split at updated
    · rename_i empty
      rw [length_eq_zero_iff.mp empty, append_nil] at grows
      cases updated
      refine inv.quiet before ((itemTold_reasoning rfl).mpr ?_)
      rw [grows]
      exact ⟨started, preview, twin⟩
    · rename_i full
      have full : delta ≠ [] := fun none => full (length_eq_zero_iff.mpr none)
      cases updated
      rw [open_] at preview twin
      refine inv.sent ?_ before ((itemTold_reasoning rfl).mpr ⟨by simp [grows, full], ?_, ?_⟩)
      · split <;> simp [owns]
      · rw [stream_append, grows, open_]
        cases wire : projected.wireStarted <;>
          simpa [stream, about, wire] using preview.grown started full fun _ => rfl
      · rw [stream_append, grows, open_]
        cases wire : projected.wireStarted <;>
          simpa [stream, about, wire] using twin.grown started full fun _ => rfl

theorem Inv.updated {itemId : HostItemId} {update : HostItemUpdate}
    (updated : updateItem project s itemId update = some s') : Inv s' := by
  have unfolded := updated
  obtain ⟨projected, active, rest⟩ := bind_eq_some_iff.mp unfolded
  obtain ⟨next, applied, rest⟩ := bind_eq_some_iff.mp rest
  obtain ⟨ids, types, ⟨text, rfl, grows, message | reasoning⟩ | ⟨other, message, reasoning⟩⟩ :=
    applyUpdate_spec applied
  · exact inv.updatedMessage active message updated
  · exact inv.updatedReasoning active reasoning updated
  · have quiet : s.send { projected with item := next } [] = s' := by
      cases update with
      | textAppend text => exact absurd rfl (other text)
      | _ => exact Option.some.inj rest
    rw [← quiet]
    refine inv.quiet ?_ (itemTold_other (types ▸ message) (types ▸ reasoning) _)
    rw [ids, types]
    exact inv.same_type active rfl

theorem Inv.completedMessage {media : LocalMediaMarkdownStream}
    (before : ∀ previous, s.items.get? projected.item.itemId = some previous →
      previous.item.type = projected.item.type)
    (type : projected.item.type = .agentMessage) (open_ : projected.completed = false)
    (started : projected.wireStarted = true ↔ media.text ≠ [])
    (told : Told .agentMessage projected.item.itemId media.text projected.completed
      (stream .agentMessage projected.item.itemId s.wire)) : Inv (completeMessage project s projected media) := by
  have grows := flush_text project media
  have own := owns_message type
  rw [open_] at told
  rw [completeMessage]
  generalize media.flush project = flushed at grows
  obtain ⟨delta, flushed⟩ := flushed
  dsimp only at grows ⊢
  by_cases empty : delta = []
  · subst empty
    rw [append_nil] at grows
    by_cases wire : projected.wireStarted = true
    · simp only [wire, length_nil, ne_eq, not_true, decide_false, Bool.or_false, if_true]
      refine inv.sent (by simp [own]) before ((itemTold_message (by exact type)).mpr ⟨_, rfl, ?_, ?_⟩)
      · simp [grows, started.mp wire]
      · simpa [stream, about, grows] using told.completed (started.mp wire)
    · have none : media.text = [] := not_not.mp fun some => wire (started.mpr some)
      simp only [Bool.of_not_eq_true wire, length_nil, ne_eq, not_true, decide_false, Bool.or_false,
        if_false, Bool.false_eq_true]
      refine inv.quiet before ((itemTold_message (by exact type)).mpr ⟨_, rfl, ?_, ?_⟩)
      · simp [grows, none]
      · rw [grows]
        exact told.settled none
  · have shown : media.text ++ delta ≠ [] := fun none => empty (append_eq_nil_iff.mp none).2
    have length : delta.length ≠ 0 := fun none => empty (length_eq_zero_iff.mp none)
    simp only [length, ne_eq, not_false_eq_true, decide_true, Bool.or_true, if_true, if_false]
    refine inv.sent ?_ before ((itemTold_message (by exact type)).mpr ⟨_, rfl, by simp [grows, empty], ?_⟩)
    · split <;> simp [own]
    · rw [stream_append, grows]
      by_cases wire : projected.wireStarted = true
      · rw [if_pos wire]
        simpa [stream, about] using (told.delta (started.mp wire) delta).completed shown
      · have none : media.text = [] := not_not.mp fun some => wire (started.mpr some)
        rw [if_neg wire, told.silent none, none]
        simpa [stream, about] using (Told.first empty).completed empty

theorem Inv.completed (completed : completeItem project s item = some s') : Inv s' := by
  obtain ⟨projected, active, completed⟩ := bind_eq_some_iff.mp completed
  obtain ⟨is, open_⟩ := activeItem_spec active
  obtain ⟨ids, told⟩ := inv.items _ projected is
  split at completed
  · cases completed
  · rename_i types
    have types := not_not.mp types
    have before := inv.same_type active types.symm
    rw [ids] at before
    split at completed
    · cases completed
    · rename_i texts
      by_cases message : item.type = .agentMessage
      · rw [types] at message
        obtain ⟨media, hasMedia, started, told⟩ := (itemTold_message message).mp told
        simp only [types, message, hasMedia, some.injEq] at completed
        subst completed
        rw [ids] at told
        exact inv.completedMessage before (types.trans message) open_ started told
      · by_cases reasoning : item.type = .reasoning
        · have same : item.text = projected.item.text := by
            by_contra apart
            exact texts ⟨.inr (types ▸ reasoning), apart⟩
          obtain ⟨started, preview, twin⟩ := (itemTold_reasoning (types ▸ reasoning)).mp told
          rw [ids, ← same] at preview twin
          rw [← same] at started
          simp only [reasoning, some.injEq] at completed
          subst completed
          by_cases wire : projected.wireStarted = true
          · have shown := started.mp wire
            rw [if_pos wire]
            refine inv.sent ?_ before ((itemTold_reasoning (by exact reasoning)).mpr ⟨by simp [wire, shown], ?_, ?_⟩)
            · simp [owns_preview reasoning, owns_twin reasoning]
            · simpa [stream, about] using preview.completed shown
            · simpa [stream, about] using twin.completed shown
          · have none : reasoningDisplayText item.text = [] := not_not.mp fun some => wire (started.mpr some)
            rw [if_neg wire]
            refine inv.quiet before ((itemTold_reasoning (by exact reasoning)).mpr ⟨by simp [wire, none], ?_, ?_⟩)
            · exact preview.settled none
            · exact twin.settled none
        · have quiet : some (s.send { projected with item, completed := true } []) = some s' := by
            rw [← completed]
            cases type : item.type with
            | agentMessage => exact absurd type message
            | reasoning => exact absurd type reasoning
            | _ => rfl
          cases quiet
          exact inv.quiet before (itemTold_other message reasoning _)

theorem Inv.congr (items : ∀ id, s'.items.get? id = s.items.get? id) (wire : s'.wire = s.wire) :
    Inv s' where
  items id projected is := by
    rw [wire]
    exact inv.items id projected ((items id).symm.trans is)
  unowned lane itemId none := by
    rw [wire]
    exact inv.unowned lane itemId fun id projected is => none id projected ((items id).trans is)

/-- The completion that is sent again has the text of the first one. -/
theorem Inv.replayed (finalAnswer : Option HostItemId) :
    Inv { s with completed := true, wire := s.wire ++ replay s finalAnswer } := by
  have quiet : Inv { s with completed := true, wire := s.wire ++ [] } :=
    inv.congr (fun _ => rfl) (append_nil _)
  rw [replay]
  split
  · rename_i projected found
    obtain ⟨id, -, is⟩ := bind_eq_some_iff.mp found
    obtain ⟨rfl, told⟩ := inv.items id projected is
    split
    · rename_i media type hasMedia
      split
      · rename_i done
        rw [Bool.and_eq_true] at done
        obtain ⟨media', hasMedia', started, told⟩ := (itemTold_message type).mp told
        rw [hasMedia, some.injEq] at hasMedia'
        subst hasMedia'
        have same : ∀ previous, s.items.get? projected.item.itemId = some previous →
            previous.item.type = projected.item.type := by
          intro previous has
          rw [is] at has
          cases has
          rfl
        have again : ItemTold (s.wire ++ [.itemCompleted .agentMessage projected.item.itemId media.text])
            projected := by
          refine (itemTold_message type).mpr ⟨media, hasMedia, started, ?_⟩
          rw [stream_append, done.2]
          simpa [stream, about] using told.completed (started.mp done.1)
        refine (inv.sent (by simp [owns_message type]) same again).congr (fun id => ?_) rfl
        change s.items.get? id = (s.items.set projected.item.itemId projected).get? id
        rw [get?_set]
        split
        · rename_i here
          rw [here, is]
        · rfl
      · exact quiet
    · exact quiet
  · exact quiet

theorem Inv.stepped {event : Event} (stepped : step project s event = some s') : Inv s' := by
  rw [step.eq_def] at stepped
  split at stepped
  · cases stepped
  · cases event with
    | turnStarted =>
      dsimp only at stepped
      split at stepped
      · cases stepped
      · cases stepped
        exact inv.congr (fun _ => rfl) rfl
    | itemStarted item => exact inv.started stepped
    | itemUpdated itemId update => exact inv.updated stepped
    | itemCompleted item => exact inv.completed stepped
    | itemDetached itemId =>
      obtain ⟨projected, -, stepped⟩ := bind_eq_some_iff.mp stepped
      split at stepped
      · cases stepped
      · cases stepped
        exact inv.congr (fun _ => rfl) rfl
    | turnCompleted finalAnswer =>
      dsimp only [completeTurn] at stepped
      split at stepped
      · cases stepped
      · split at stepped
        · cases stepped
        · cases stepped
          exact inv.replayed finalAnswer

theorem inv_run {events : List (ProjectLocalMedia × Event)} (accepted : run s events = some s') :
    Inv s' := by
  induction events generalizing s with
  | nil =>
    cases accepted
    exact inv
  | cons event events ih =>
    obtain ⟨next, stepped, accepted⟩ := bind_eq_some_iff.mp accepted
    exact ih (inv.stepped stepped) accepted

end

/-- Where a sequence of events is accepted, what is sent with one type and ID is a start, deltas, and
completions with the text of the start and the deltas in their order. -/
theorem text_streamed {events : List (ProjectLocalMedia × Event)} (accepted : run initial events = some s)
    (lane : Lane) (itemId : String) :
    stream lane itemId s.wire = [] ∨
      ∃ (first : Utf16) (deltas : List Utf16) (ends : Nat), stream lane itemId s.wire =
        .itemStarted lane itemId first :: (deltas.map (.delta lane itemId) ++
          List.replicate ends (.itemCompleted lane itemId (first ++ deltas.flatten))) := by
  have inv := inv_run Inv.initial accepted
  have shape : ∀ {shown done}, Told lane itemId shown done (stream lane itemId s.wire) →
      stream lane itemId s.wire = [] ∨ ∃ (first : Utf16) (deltas : List Utf16) (ends : Nat),
        stream lane itemId s.wire = .itemStarted lane itemId first :: (deltas.map (.delta lane itemId) ++
          List.replicate ends (.itemCompleted lane itemId (first ++ deltas.flatten))) := by
    intro shown done told
    by_cases none : shown = []
    · exact .inl (told.silent none)
    · obtain ⟨first, deltas, ends, sent, rfl, -⟩ := told.told none
      exact .inr ⟨first, deltas, ends, sent⟩
  by_cases owner : ∃ id projected, s.items.get? id = some projected ∧ owns projected.item lane itemId
  · obtain ⟨id, projected, is, owner⟩ := owner
    have told := (inv.items id projected is).2
    rw [owns] at owner
    split at owner
    · rename_i type
      obtain ⟨rfl, rfl⟩ := owner
      obtain ⟨media, -, -, told⟩ := (itemTold_message type).mp told
      exact shape told
    · rename_i type
      obtain ⟨-, preview, twin⟩ := (itemTold_reasoning type).mp told
      rcases owner with ⟨rfl, rfl⟩ | ⟨rfl, rfl⟩
      · exact shape preview
      · exact shape twin
    · cases owner
  · push Not at owner
    exact .inl (inv.unowned lane itemId owner)

/-- The rewriting of an image that exists. -/
def sampleProject (native : Utf16) (hold : Bool) : LocalMediaProjection :=
  if native = Utf16.ofString "![x](a.png)" then ⟨Utf16.ofString "![x](/w/a.png)", 11⟩
  else if native = Utf16.ofString "![x](a" ∧ hold = true then ⟨Utf16.ofString "![x](", 5⟩
  else ⟨native, native.length⟩

/-- An image in two chunks, and reasoning whose line ends are held back. -/
def sampleEvents : List (ProjectLocalMedia × Event) :=
  [.turnStarted, .itemStarted ⟨"m", .agentMessage, []⟩,
    .itemUpdated "m" (.textAppend (Utf16.ofString "![x](a")),
    .itemStarted ⟨"r", .reasoning, []⟩, .itemUpdated "r" (.textAppend (Utf16.ofString "so\n")),
    .itemUpdated "m" (.textAppend (Utf16.ofString ".png)")),
    .itemUpdated "r" (.textAppend (Utf16.ofString "on\n")),
    .itemCompleted ⟨"r", .reasoning, Utf16.ofString "so\non\n"⟩,
    .itemCompleted ⟨"m", .agentMessage, Utf16.ofString "![x](a.png)"⟩].map fun event => (sampleProject, event)

theorem text_streamed_sample : ∃ s, run initial sampleEvents = some s ∧
    stream .agentMessage "m" s.wire = [.itemStarted .agentMessage "m" [],
      .delta .agentMessage "m" (Utf16.ofString "![x]("), .delta .agentMessage "m" (Utf16.ofString "/w/a.png)"),
      .itemCompleted .agentMessage "m" (Utf16.ofString "![x](/w/a.png)")] ∧
    (stream .reasoning "r-summary" s.wire = [] ∨ ∃ (first : Utf16) (deltas : List Utf16) (ends : Nat),
      stream .reasoning "r-summary" s.wire =
        .itemStarted .reasoning "r-summary" first :: (deltas.map (.delta .reasoning "r-summary") ++
          List.replicate ends (.itemCompleted .reasoning "r-summary" (first ++ deltas.flatten)))) := by
  have told := fun s (accepted : run initial sampleEvents = some s) =>
    text_streamed accepted .reasoning "r-summary"
  exact ⟨_, rfl, by decide, told _ rfl⟩

end Steps

end CodexHost.Guarantees.TextStreams
