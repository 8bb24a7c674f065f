import CodexHost.Guarantees.LiveItems
import CodexHost.Source.ClaudeCode.History

/-!
# The identity of a Tool Item, live and in history

Both sides number the tool uses of a Turn in their order, but they do not count the same ones: the
live path counts what reaches the tool lifecycle, the history everything that is no Subagent tool.
The ids agree exactly where the uses before have been counted alike.
-/
namespace CodexHost.Guarantees.ToolIdentity
open Foundation Source.ClaudeCode Guarantees.LiveItems OrderedMap List Option Projection TurnAccumulator Nat

variable {use : ToolUse}

section Ordinals

/-- The tool uses that are counted, each with its ordinal. -/
def ordinals (counts : ToolUse → Bool) : Nat → List ToolUse → List (ToolUse × Nat)
  | _, [] => []
  | n, use :: rest =>
    if counts use then (use, n + 1) :: ordinals counts (n + 1) rest else ordinals counts n rest

variable {counts other : ToolUse → Bool}

theorem ordinals_append (n : Nat) (front rest : List ToolUse) : ordinals counts n (front ++ rest) =
      ordinals counts n front ++ ordinals counts (n + front.countP counts) rest := by
  induction front generalizing n with
  | nil => rfl
  | cons use front ih =>
    rw [cons_append, ordinals, ordinals, ih, ih, countP_cons]
    split
    · rw [cons_append, Nat.add_assoc, Nat.add_comm 1]
    · rfl

/-- The ordinal of a use is the number of uses counted before it, and one. -/
theorem mem_ordinals {n : Nat} {uses : List ToolUse} {ordinal : Nat} :
    (use, ordinal) ∈ ordinals counts n uses ↔ ∃ before after, uses = before ++ use :: after ∧
      counts use = true ∧ ordinal = n + before.countP counts + 1 := by
  constructor
  · intro member
    induction uses generalizing n with
    | nil => cases member
    | cons first rest ih =>
      rw [ordinals] at member
      split at member
      · next counted =>
        rcases mem_cons.mp member with same | member
        · cases same
          exact ⟨[], rest, rfl, counted, rfl⟩
        · obtain ⟨before, after, rfl, counted', is⟩ := ih member
          refine ⟨first :: before, after, rfl, counted', ?_⟩
          rw [is, countP_cons_of_pos counted]
          omega
      · next skipped =>
        obtain ⟨before, after, rfl, counted, is⟩ := ih member
        refine ⟨first :: before, after, rfl, counted, ?_⟩
        rw [is, countP_cons_of_neg skipped]
  · rintro ⟨before, after, rfl, counted, rfl⟩
    rw [ordinals_append, ordinals, if_pos counted]
    exact mem_append_right _ mem_cons_self

/-- Two counts that agree: what the larger one counts the smaller one counts. -/
theorem countP_eq_iff {uses : List ToolUse} (weaker : ∀ use ∈ uses, counts use → other use) :
    uses.countP counts = uses.countP other ↔ ∀ use ∈ uses, other use → counts use := by
  induction uses with
  | nil => simp
  | cons use rest ih =>
    rw [forall_mem_cons] at weaker
    have fewer : rest.countP counts ≤ rest.countP other := countP_mono_left weaker.2
    rw [forall_mem_cons, ← ih weaker.2]
    by_cases counted : counts use = true
    · rw [countP_cons_of_pos counted, countP_cons_of_pos (weaker.1 counted)]
      simp [counted]
    · by_cases more : other use = true
      · rw [countP_cons_of_neg counted, countP_cons_of_pos more]
        constructor
        · omega
        · exact fun both => (counted (both.1 more)).elim
      · rw [countP_cons_of_neg counted, countP_cons_of_neg more]
        simp [more]

end Ordinals

/-- The tool use of a block. -/
def useOf : ContentBlock → Option ToolUse
  | .toolUse use => some use
  | _ => none

def usesOf (content : MessageContent) : List ToolUse := (content.array.getD []).filterMap useOf

/-- The tool uses of a message. -/
def messageUses : NativeMessage → List ToolUse
  | .assistant message => usesOf message.content
  | _ => []

/-- The tool results of a message. -/
def messageResults : NativeMessage → List ToolResult
  | .user message => (message.content.array.getD []).filterMap ContentBlock.result
  | _ => []

def toolUses (turn : List NativeMessage) : List ToolUse := turn.flatMap messageUses

/-- A tool use that becomes a Tool Item on the live path. -/
def startsTool (use : ToolUse) : Bool :=
  match TurnAccumulator.wellFormed use with
  | some (_, name, _) => plainName name
  | none => false

/-- A tool use that the history counts. -/
def countsInHistory (use : ToolUse) : Bool :=
  match use.id, use.name with
  | some _, some name => !CLAUDE_SUBAGENT_TOOLS.contains name
  | _, _ => false

theorem wellFormed_some {id name : String} {input : JsonValue}
    (formed : TurnAccumulator.wellFormed use = some (id, name, input)) :
    use.id = some id ∧ use.name = some name := by
  simp only [wellFormed, nonEmpty, Option.bind_eq_bind, Option.pure_def,
    Option.bind_eq_some_iff, Option.filter_eq_some_iff, Option.some.injEq, Prod.mk.injEq] at formed
  obtain ⟨_, ⟨isId, -⟩, _, ⟨isName, -⟩, _, -, rfl, rfl, -⟩ := formed
  exact ⟨isId, isName⟩

theorem startsTool_some (starts : startsTool use = true) :
    ∃ id, use.id = some id ∧ countsInHistory use = true := by
  unfold startsTool at starts
  split at starts
  · next id name input formed =>
    obtain ⟨isId, isName⟩ := wellFormed_some formed
    refine ⟨id, isId, ?_⟩
    simp only [plainName, plain, toolOf, Bool.and_eq_true, Bool.not_eq_true',
      decide_eq_false_iff_not] at starts
    simp [countsInHistory, isId, isName, starts.1]
  · cases starts

section Live
variable {readings : NativeReadings} {cancelled : Bool} {key : String} {a : TurnAccumulator}
  {items begins : TurnItems} {c : Consumed} {uses : List ToolUse}

/-- The started Items, each as its call and its id. -/
def startedIds (items : TurnItems) : List (String × String) :=
  items.tools.started.map fun started => (started.1, started.2.itemId)

/-- The live path after these tool uses. -/
structure Counted (key : String) (uses : List ToolUse) (a : TurnAccumulator) (items : TurnItems) : Prop where
  inStep : InStep a items
  goes : a.completed = false
  named : items.tools.nativeTurnKey = key
  ordinal : items.tools.toolOrdinal = uses.countP startsTool
  started : startedIds items = (ordinals startsTool 0 uses).map fun counted =>
    (counted.1.id.getD "", claudeTranscriptItemId key .tool counted.2)
  known : ∀ id, (a.tools.get? id).isSome = true ∨ id ∈ a.completedToolIds → ∃ use ∈ uses, use.id = some id

theorem counted_stable (cancelled : Bool) (key : String) (uses : List ToolUse) :
    Stable cancelled (Counted key uses) where
  mild a items event counted mild := by
    obtain ⟨next, handled, after, same⟩ := handle_mild counted.inStep mild
    refine ⟨next, handled, after, counted.goes, ?_, ?_, ?_, counted.known⟩
    · rw [same]
      exact counted.named
    · rw [same]
      exact counted.ordinal
    · rw [startedIds, same]
      exact counted.started
  congr a b items counted tools completed done := by
    refine ⟨counted.inStep.congr tools completed, done.trans counted.goes, counted.named,
      counted.ordinal, counted.started, ?_⟩
    rw [tools, completed]
    exact counted.known

/-- A use that starts no Tool Item. -/
theorem Counted.skip (counted : Counted key uses a items)
    (skipped : startsTool use = false) : Counted key (uses ++ [use]) a items := by
  refine ⟨counted.inStep, counted.goes, counted.named, ?_, ?_, fun id known => ?_⟩
  · rw [countP_append, counted.ordinal]
    simp [skipped]
  · rw [ordinals_append, counted.started]
    simp [ordinals, skipped]
  · obtain ⟨use, member, is⟩ := counted.known id known
    exact ⟨use, mem_append_left _ member, is⟩

theorem itemOf_itemId (itemId toolName : String) (arguments : JsonValue) :
    (ToolLifecycle.itemOf itemId toolName arguments).itemId = itemId := by
  unfold ToolLifecycle.itemOf
  split
  · rfl
  · split
    · rfl
    · rfl

theorem start_fields {l next : ToolLifecycle} {id name : String} {input : JsonValue}
    (started : l.start id name input = .ok next) :
    next.nativeTurnKey = l.nativeTurnKey ∧ next.toolOrdinal = l.toolOrdinal + 1 ∧
      next.started.map (fun started => (started.1, started.2.itemId)) =
        l.started.map (fun started => (started.1, started.2.itemId)) ++
          [(id, claudeTranscriptItemId l.nativeTurnKey .tool (l.toolOrdinal + 1))] := by
  unfold ToolLifecycle.start at started
  split at started
  · cases started
  · cases started
    simp [itemOf_itemId]

/-- The step for a tool use whose id is new. -/
theorem counted_toolUse {ignoreKnownIds : Bool}
    (fresh : ∀ id, use.id = some id → ∀ other ∈ uses, other.id ≠ some id)
    (follows : Follows cancelled begins (Counted key uses) c) :
    Follows cancelled begins (Counted key (uses ++ [use]))
      (TurnAccumulator.consumeToolUse readings ignoreKnownIds c (.toolUse use)) := by
  unfold consumeToolUse
  simp only
  split
  · next malformed =>
    obtain ⟨items, folded, counted⟩ :=
      follows_mildly (counted_stable cancelled key uses) follows
        (mildly_same (b := { c.1 with protocolConflict := true }) rfl rfl rfl)
    exact ⟨items, folded, counted.skip (by rw [startsTool, malformed])⟩
  · next id name input formed =>
    obtain ⟨isId, -⟩ := wellFormed_some formed
    obtain ⟨items, folded, counted⟩ := follows
    have unknown : ¬((c.1.tools.get? id).isSome = true ∨ id ∈ c.1.completedToolIds) := by
      intro known
      obtain ⟨other, member, same⟩ := counted.known id known
      exact fresh id isId other member same
    rw [not_or, not_isSome_iff_eq_none] at unknown
    rw [if_neg (by simp [OrderedMap.has, unknown.1, unknown.2])]
    refine follows_event ⟨items, folded, counted⟩ fun items counted => ?_
    obtain ⟨next, handled, after, starts⟩ :=
      @handle_start readings cancelled _ _ _ name input counted.inStep unknown.1 unknown.2
    have isStart : startsTool use = plainName name := by rw [startsTool, formed]
    have known (other : String) (is : ((c.1.tools.set id (toolOf name)).get? other).isSome = true ∨
        other ∈ c.1.completedToolIds) : ∃ use' ∈ uses ++ [use], use'.id = some other := by
      by_cases same : other = id
      · exact ⟨use, mem_append_right _ (mem_singleton_self _), same ▸ isId⟩
      · rw [get?_set_of_ne _ _ same] at is
        obtain ⟨use', member, is⟩ := counted.known other is
        exact ⟨use', mem_append_left _ member, is⟩
    refine ⟨next, handled, after, counted.goes, ?_, ?_, ?_, known⟩
    · split at starts
      · exact (start_fields starts).1.trans counted.named
      · rw [starts]
        exact counted.named
    · rw [countP_append, ← counted.ordinal]
      split at starts
      · next isPlain =>
        rw [(start_fields starts).2.1, countP_singleton, isStart, if_pos isPlain]
      · next notPlain =>
        rw [starts, countP_singleton, isStart, if_neg notPlain]
        rfl
    · rw [ordinals_append, map_append, ← counted.started]
      split at starts
      · next isPlain =>
        rw [startedIds, (start_fields starts).2.2, counted.named, counted.ordinal]
        simp [ordinals, isStart, isPlain, startedIds, isId]
      · next notPlain =>
        rw [startedIds, starts]
        simp [ordinals, isStart, notPlain, startedIds]

theorem counted_toolUses {ignoreKnownIds : Bool} {content : MessageContent}
    (unique : ((uses ++ usesOf content).filterMap (·.id)).Nodup)
    (follows : Follows cancelled begins (Counted key uses) c) :
    Follows cancelled begins (Counted key (uses ++ usesOf content))
      (TurnAccumulator.consumeToolUseBlocks readings ignoreKnownIds content c) := by
  unfold consumeToolUseBlocks usesOf at *
  revert unique
  generalize content.array.getD [] = blocks
  intro unique
  induction blocks generalizing c uses with
  | nil => simpa using follows
  | cons block rest ih =>
    cases block with
    | toolUse use =>
      have split : uses ++ (ContentBlock.toolUse use :: rest).filterMap useOf =
          (uses ++ [use]) ++ rest.filterMap useOf := append_cons _ _ _
      rw [split] at unique ⊢
      refine ih (counted_toolUse (fun id isId other member same => ?_) follows) unique
      rw [filterMap_append, filterMap_append] at unique
      have both := (nodup_append.mp (nodup_append.mp unique).1).2.2
      exact both id (mem_filterMap.mpr ⟨other, member, same⟩) id
        (mem_filterMap.mpr ⟨use, mem_singleton_self _, isId⟩) rfl
    | text | thinking | toolResult | other => exact ih follows unique

/-- A message of the root that is no result. -/
def Root (message : NativeMessage) : Prop :=
  message.parentToolUseId = none ∧ ∀ success aborted, message ≠ .result success aborted

theorem counted_consume {message : NativeMessage} (root : Root message)
    (unique : ((uses ++ messageUses message).filterMap (·.id)).Nodup)
    (counted : Counted key uses a items) :
    Follows cancelled items (Counted key (uses ++ messageUses message)) (a.consume readings message).1 := by
  have begun : Follows cancelled items (Counted key uses) (a, []) := ⟨items, rfl, counted⟩
  have none (parent : Option String) (is : parent = none) : parent.isSome = false := by rw [is]; rfl
  have same {c : Consumed} (mildly : Mildly (a, []) c) :
      Follows cancelled items (Counted key (uses ++ [])) c := by
    rw [append_nil]
    exact follows_mildly (counted_stable cancelled key uses) begun mildly
  unfold consume
  rw [if_neg (by rw [counted.goes]; exact Bool.false_ne_true)]
  cases message with
  | stream uuid parent event =>
    rw [none _ root.1]
    exact same (mildly_stream _ _ _)
  | system uuid parent frame => exact same (mildly_system _ _ _)
  | toolProgress toolUseId elapsedMs => exact same (mildly_progress _ _ _)
  | result success aborted => exact (root.2 success aborted rfl).elim
  | assistant message =>
    simp only
    rw [if_neg (by rw [none _ root.1]; exact Bool.false_ne_true)]
    refine follows_assistant (counted_stable cancelled key uses)
      (counted_stable cancelled key _) (fun _ _ follows => counted_toolUses unique follows) ?_
    exact follows_mildly (counted_stable cancelled key uses) begun (mildly_same rfl rfl rfl)
  | user message =>
    simp only [messageUses, append_nil]
    refine follows_results (counted_stable cancelled key uses)
      (fun a items id tool nativeResult result counted found => ?_) ?_
    · obtain ⟨next, handled, after, started, ordinal, named⟩ :=
        @handle_completion readings cancelled _ _ _ _ nativeResult result counted.inStep found
      refine ⟨next, handled, after, counted.goes, named.trans counted.named,
        ordinal.trans counted.ordinal, ?_, fun other is => ?_⟩
      · rw [startedIds, started]
        exact counted.started
      · by_cases ended : other = id
        · exact counted.known other (.inl (by rw [ended, found]; rfl))
        · rw [get?_delete_of_ne _ ended] at is
          exact counted.known other (by simpa [ended] using is)
    · refine follows_mildly (counted_stable cancelled key uses) begun (mildly_state rfl rfl rfl ?_)
      refine forall_mem_append.mpr ⟨activity_mild _, fun event member => ?_⟩
      obtain ⟨settlement, -, rfl⟩ := map_eq_some_iff.mp (mem_toList.mp member)
      trivial

/-- The whole Turn on the live path. -/
theorem counted_turn (readings : NativeReadings) (key : String) {turn : List NativeMessage}
    (roots : ∀ message ∈ turn, Root message)
    (unique : ((toolUses turn).filterMap (·.id)).Nodup) :
    ∃ live, turn.foldlM (LiveTurn.receive readings) (.new key) = .ok live ∧
      Counted key (toolUses turn) live.accumulator live.items := by
  induction turn using List.reverseRecOn with
  | nil =>
    refine ⟨.new key, rfl, ⟨fun id => ⟨rfl, rfl, nofun, nofun⟩, rfl, rfl, rfl, rfl, ?_⟩⟩
    rintro id (known | known)
    · cases known
    · cases known
  | append_singleton before message ih =>
    have uses : toolUses (before ++ [message]) = toolUses before ++ messageUses message := by
      simp [toolUses]
    rw [uses] at unique ⊢
    have unique' := unique
    rw [filterMap_append] at unique'
    rw [forall_mem_append] at roots
    obtain ⟨live, folded, counted⟩ := ih roots.1 (nodup_append.mp unique').1
    obtain ⟨received, heard, after⟩ : ∃ received, live.receive readings message = .ok received ∧
        Counted key (toolUses before ++ messageUses message) received.accumulator received.items :=
      receive_follows fun cancelled =>
        counted_consume (roots.2 message (mem_singleton_self _)) unique counted
    refine ⟨received, ?_, after⟩
    rw [foldlM_append, bind_ok]
    refine ⟨live, folded, ?_⟩
    rw [foldlM_cons, heard]
    rfl

end Live

section History
variable {rules : TextRules} {key : String} {uses : List ToolUse} {p : Projection}
  {results : OrderedMap String ToolResult} {outcome : HistoricalTurnOutcome}

/-- The projected Items of tool uses, each as its call and its id. -/
def projectedIds (items : List HistoricalItem) : List (String × String) :=
  items.filterMap fun item => item.callId.map fun call => (call, item.item.itemId)

/-- The id of a use that has a name too. -/
def namedId (use : ToolUse) : Option String := use.name.bind fun _ => use.id

/-- The history after these tool uses. -/
structure Noted (key : String) (uses : List ToolUse) (p : Projection) : Prop where
  ordinal : p.toolOrdinal = uses.countP countsInHistory
  calls : (projectedIds p.items).map Prod.fst = uses.filterMap namedId
  ids : ∀ counted ∈ ordinals countsInHistory 0 uses,
    (counted.1.id.getD "", claudeTranscriptItemId key .tool counted.2) ∈ projectedIds p.items

/-- A step that adds no Item of a tool use. -/
theorem Noted.same {q : Projection} (noted : Noted key uses p) (ordinal : q.toolOrdinal = p.toolOrdinal)
    (ids : projectedIds q.items = projectedIds p.items) : Noted key uses q := by
  refine ⟨ordinal.trans noted.ordinal, ?_, ?_⟩
  · rw [ids]
    exact noted.calls
  · rw [ids]
    exact noted.ids

theorem agentMessage_same (key : String) (text : Utf16) (outcome : HostItemOutcome) :
    projectedIds (p.agentMessage key text outcome).items = projectedIds p.items := by
  simp [projectedIds, agentMessage]

theorem reasoning_same (key : String) (text : Utf16) (outcome : HostItemOutcome) :
    projectedIds (p.reasoning key text outcome).items = projectedIds p.items := by
  simp [projectedIds, reasoning]

theorem toolItem_ids (itemId id name : String) (input : Option JsonValue) (result : ToolResult) :
    projectedIds [Projection.toolItem rules itemId id name input result] = [(id, itemId)] := by
  unfold toolItem projectedIds
  split <;> rfl

/-- The step for a tool use that has its result. -/
theorem noted_toolUse {message : ClaudeHistoryMessage} (blockIndex : Nat) (root : message.nested = false)
    (answered : ∀ id, use.id = some id → (results.get? id).isSome = true) (noted : Noted key uses p) :
    Noted key (uses ++ [use]) (p.toolUse rules key results message use blockIndex) := by
  unfold toolUse
  split
  · next id name isId isName =>
    obtain ⟨result, found⟩ := isSome_iff_exists.mp (answered id isId)
    have counts : countsInHistory use = !CLAUDE_SUBAGENT_TOOLS.contains name := by
      simp [countsInHistory, isId, isName]
    have called : namedId use = some id := by simp [namedId, isId, isName]
    simp only [root, Bool.not_false, Bool.true_and, ← counts, found]
    have split {q : Projection} (same : q.items = p.items) (itemId : String) :
        projectedIds (q.items ++ [toolItem rules itemId id name use.input result]) =
          projectedIds p.items ++ [(id, itemId)] := by
      rw [same, projectedIds, filterMap_append, ← projectedIds, ← projectedIds, toolItem_ids]
    by_cases counted : countsInHistory use = true
    · simp only [counted, if_true]
      refine ⟨?_, ?_, fun other member => ?_⟩
      · rw [countP_append, ← noted.ordinal]
        simp [counted]
      · rw [split rfl, map_append, noted.calls, filterMap_append]
        simp [called]
      · rw [split rfl]
        rw [ordinals_append, ← noted.ordinal, mem_append] at member
        rcases member with member | member
        · exact mem_append_left _ (noted.ids other member)
        · rw [ordinals, if_pos counted, ordinals, mem_singleton] at member
          rw [member]
          simp [isId]
    · simp only [counted, if_false, Bool.false_eq_true]
      refine ⟨?_, ?_, fun other member => ?_⟩
      · rw [countP_append, ← noted.ordinal]
        simp [counted]
      · rw [split rfl, map_append, noted.calls, filterMap_append]
        simp [called]
      · rw [split rfl]
        rw [ordinals_append, mem_append] at member
        rcases member with member | member
        · exact mem_append_left _ (noted.ids other member)
        · rw [ordinals, if_neg counted] at member
          cases member
  · next unnamed =>
    have nameless : namedId use = none ∧ countsInHistory use = false := by
      unfold namedId countsInHistory
      cases isId : use.id with
      | none => simp
      | some id =>
        cases isName : use.name with
        | none => exact ⟨rfl, rfl⟩
        | some name => exact (unnamed id name isId isName).elim
    refine ⟨?_, ?_, ?_⟩
    · rw [countP_append, noted.ordinal]
      simp [nameless.2]
    · rw [noted.calls, filterMap_append]
      simp [nameless.1]
    · rw [ordinals_append]
      simpa [ordinals, nameless.2] using noted.ids

/-- The tool uses of a record. -/
def recordUses (record : HistoryRole × MessageContent) : List ToolUse :=
  match record.1 with
  | .user => []
  | .assistant => usesOf record.2

theorem noted_message {prompt message : ClaudeHistoryMessage} (root : message.nested = false)
    (answered : ∀ use ∈ recordUses (message.type, message.content), ∀ id, use.id = some id →
      (results.get? id).isSome = true)
    (noted : Noted prompt.uuid uses p) :
    Noted prompt.uuid (uses ++ recordUses (message.type, message.content))
      (Projection.message rules prompt results outcome p message) := by
  unfold Projection.message recordUses at *
  cases isType : message.type with
  | user =>
    simp only [append_nil]
    split
    · split
      · exact noted.same rfl (agentMessage_same _ _ _)
      · exact noted
    · exact noted
  | assistant =>
    rw [isType] at answered
    simp only at answered ⊢
    unfold usesOf at *
    split
    · next plain =>
      rw [plain, getD_none, filterMap_nil, append_nil]
      split
      · exact noted
      · exact noted.same rfl (agentMessage_same _ _ _)
    · next blocks isArray =>
      rw [isArray, getD_some] at answered ⊢
      have begun : Noted prompt.uuid uses
          { p with projectedReasoning := false, projectedText := false } := noted.same rfl rfl
      revert begun
      generalize { p with projectedReasoning := false, projectedText := false } = q
      generalize 0 = n
      clear noted isArray
      intro begun
      induction blocks generalizing q uses n with
      | nil => simpa using begun
      | cons block rest ih =>
        cases block with
        | toolUse use =>
          have split : uses ++ (ContentBlock.toolUse use :: rest).filterMap useOf =
              (uses ++ [use]) ++ rest.filterMap useOf := append_cons _ _ _
          rw [split]
          exact ih (fun use member => answered use (mem_cons_of_mem _ member)) _ _
            (noted_toolUse n root (answered use mem_cons_self) begun)
        | text part =>
          refine ih answered _ _ ?_
          simp only [Projection.block]
          split
          · exact begun
          · exact begun.same rfl (agentMessage_same _ _ _)
        | thinking part =>
          refine ih answered _ _ ?_
          simp only [Projection.block]
          split
          · exact begun
          · exact begun.same rfl (reasoning_same _ _ _)
        | toolResult | other => exact ih answered _ _ begun

theorem noted_messages {prompt : ClaudeHistoryMessage} {rest : List ClaudeHistoryMessage}
    (roots : ∀ message ∈ rest, message.nested = false)
    (answered : ∀ use ∈ rest.flatMap fun message => recordUses (message.type, message.content),
      ∀ id, use.id = some id → (results.get? id).isSome = true)
    (noted : Noted prompt.uuid uses p) :
    Noted prompt.uuid (uses ++ rest.flatMap fun message => recordUses (message.type, message.content))
      (rest.foldl (Projection.message rules prompt results outcome) p) := by
  induction rest generalizing p uses with
  | nil => simpa using noted
  | cons message rest ih =>
    rw [forall_mem_cons] at roots
    rw [flatMap_cons, forall_mem_append] at answered
    rw [flatMap_cons, ← append_assoc]
    exact ih roots.2 answered.2 (noted_message roots.1 answered.1 noted)

end History

section Transcripts
variable {rules : TextRules} {readings : NativeReadings} {turn : List NativeMessage}
  {prompt : ClaudeHistoryMessage} {rest : List ClaudeHistoryMessage}

/-- The record of a native message. -/
def recordOf : NativeMessage → Option (HistoryRole × MessageContent)
  | .assistant message => some (.assistant, message.content)
  | .user message => some (.user, message.content)
  | _ => none

/-- The messages of a Turn: of the root, with unique tool use ids and a result for every use. -/
structure WellFormed (turn : List NativeMessage) : Prop where
  roots : ∀ message ∈ turn, Root message
  unique : ((toolUses turn).filterMap (·.id)).Nodup
  answered : ∀ use ∈ toolUses turn, ∀ id, use.id = some id →
    ∃ message ∈ turn, ∃ result ∈ messageResults message, result.toolUseId = some id

/-- The transcript of the Turn: the prompt, and a record of each message that has one. -/
structure TranscriptOf (turn : List NativeMessage) (prompt : ClaudeHistoryMessage)
    (rest : List ClaudeHistoryMessage) : Prop where
  prompted : prompt.type = .user
  starts : prompt.startsTurn = true
  nested : prompt.nested = false
  records : rest.map (fun message => (message.type, message.content)) = turn.filterMap recordOf
  inTurn : ∀ message ∈ rest, message.nested = false ∧ message.startsTurn = false

/-- The Items of tool uses in the snapshot of a transcript, each as its call and its id. -/
def historyIds (rules : TextRules) (transcript : List ClaudeHistoryMessage) : List (String × String) :=
  projectedIds ((mapClaudeSnapshot rules transcript).flatMap (·.items))

theorem splitTurns_none {messages : List ClaudeHistoryMessage}
    (inTurn : ∀ message ∈ messages, message.startsTurn = false) :
    splitTurns messages = (messages, []) := by
  induction messages with
  | nil => rfl
  | cons message rest ih =>
    rw [forall_mem_cons] at inTurn
    simp [splitTurns, ih inTurn.2, inTurn.1]

theorem snapshot_of (transcript : TranscriptOf turn prompt rest) :
    mapClaudeSnapshot rules (prompt :: rest) = [mapTurn rules prompt rest] := by
  simp [mapClaudeSnapshot, splitTurns, transcript.starts,
    splitTurns_none fun message member => (transcript.inTurn message member).2]

theorem toolUses_of (transcript : TranscriptOf turn prompt rest) :
    rest.flatMap (fun message => recordUses (message.type, message.content)) = toolUses turn := by
  have records := transcript.records
  clear transcript
  rw [← flatMap_map (fun message : ClaudeHistoryMessage => (message.type, message.content)),
    records]
  clear records
  induction turn with
  | nil => rfl
  | cons message turn ih =>
    cases message with
    | assistant message | user message =>
      simp only [filterMap_cons, recordOf, flatMap_cons, ih, toolUses, recordUses, messageUses]
    | stream | system | toolProgress | result => exact ih

theorem answered_of (wellFormed : WellFormed turn) (transcript : TranscriptOf turn prompt rest) :
    ∀ use ∈ toolUses turn, ∀ id, use.id = some id →
      ((toolResultBlocks (prompt :: rest)).get? id).isSome = true := by
  intro use member id isId
  obtain ⟨message, sent, result, has, named⟩ := wellFormed.answered use member id isId
  rw [← OrderedMap.has, toolResultBlocks, has_setAll]
  refine .inl (mem_map.mpr ⟨(id, result), ?_, rfl⟩)
  cases message with
  | user message =>
    have recorded : (HistoryRole.user, message.content) ∈ turn.filterMap recordOf :=
      mem_filterMap.mpr ⟨_, sent, rfl⟩
    rw [← transcript.records] at recorded
    obtain ⟨record, isRecord, same⟩ := mem_map.mp recorded
    obtain ⟨isUser, content⟩ := Prod.mk.inj same
    refine mem_flatMap.mpr ⟨record, mem_filter.mpr ⟨mem_cons_of_mem _ isRecord, by simp [isUser]⟩, ?_⟩
    rw [content]
    exact mem_filterMap.mpr ⟨result, has, by rw [named]; rfl⟩
  | assistant | stream | system | toolProgress | result => cases has

/-- The history of the whole Turn. -/
theorem noted_turn (rules : TextRules) (wellFormed : WellFormed turn)
    (transcript : TranscriptOf turn prompt rest) :
    ∃ p : Projection, historyIds rules (prompt :: rest) = projectedIds p.items ∧
      Noted prompt.uuid (toolUses turn) p := by
  have nothing : Noted prompt.uuid [] ⟨0, 0, 0, false, false, []⟩ := ⟨rfl, rfl, nofun⟩
  have uses := toolUses_of transcript
  refine ⟨_, by rw [historyIds, snapshot_of transcript, flatMap_singleton, mapTurn], ?_⟩
  rw [foldl_cons, ← uses]
  have answered := answered_of wellFormed transcript
  have prompted : recordUses (prompt.type, prompt.content) = [] := by
    rw [recordUses, transcript.prompted]
  have start := @noted_message rules _ _ (toolResultBlocks (prompt :: rest))
    (turnOutcome (prompt :: rest)) prompt prompt transcript.nested (by simp [prompted]) nothing
  rw [prompted, append_nil] at start
  exact noted_messages (fun message member => (transcript.inTurn message member).1)
    (uses ▸ answered) start

end Transcripts

section Identity
variable {rules : TextRules} {readings : NativeReadings} {turn : List NativeMessage}
  {prompt : ClaudeHistoryMessage} {rest : List ClaudeHistoryMessage}

theorem tool_itemId_inj {key : String} {n m : Nat}
    (same : claudeTranscriptItemId key .tool n = claudeTranscriptItemId key .tool m) : n = m := by
  have digits : n.repr = m.repr := (String.append_right_inj _).mp same
  rw [← @ofDigitChars_toDigits 10 n (by decide) (by decide), ← toList_repr, digits,
    toList_repr, ofDigitChars_toDigits (by decide) (by decide)]

/-- Wherever a use becomes a Tool Item, the uses before that the history counts became Tool Items. -/
def CountedAlike (uses : List ToolUse) : Prop :=
  ∀ before use after, uses = before ++ use :: after → startsTool use = true →
    ∀ other ∈ before, countsInHistory other = true → startsTool other = true

/-- A use that becomes a Tool Item has in the history the ordinal of the history's own count. -/
theorem history_lookup {ids : List (String × String)} {p : Projection} {key : String}
    {before after : List ToolUse} (is : ids = projectedIds p.items)
    (noted : Noted key (before ++ use :: after) p)
    (unique : ((before ++ use :: after).filterMap (·.id)).Nodup) (starts : startsTool use = true) :
    ids.lookup (use.id.getD "") =
      some (claudeTranscriptItemId key .tool (before.countP countsInHistory + 1)) := by
  obtain ⟨-, -, counted⟩ := startsTool_some starts
  have named : ((before ++ use :: after).filterMap namedId).Sublist
      ((before ++ use :: after).filterMap (·.id)) := by
    generalize before ++ use :: after = uses
    induction uses with
    | nil => exact .slnil
    | cons use rest ih =>
      rw [filterMap_cons, filterMap_cons, namedId]
      cases use.name with
      | none =>
        cases use.id with
        | none => exact ih
        | some id => exact ih.cons id
      | some name =>
        cases use.id with
        | none => exact ih
        | some id => exact ih.cons_cons id
  rw [is, lookup_eq_some_iff_mem (by rw [noted.calls]; exact unique.sublist named)]
  refine noted.ids (use, before.countP countsInHistory + 1) (mem_ordinals.mpr ?_)
  exact ⟨before, after, rfl, counted, by rw [Nat.zero_add]⟩

/-- Every Tool Item of the live path has its id in the history exactly when the uses before it are
counted alike. -/
theorem tool_ids_agree (wellFormed : WellFormed turn) (transcript : TranscriptOf turn prompt rest) :
    ∃ live, turn.foldlM (LiveTurn.receive readings) (.new prompt.uuid) = .ok live ∧
      ((∀ started ∈ startedIds live.items,
          (historyIds rules (prompt :: rest)).lookup started.1 = some started.2) ↔
        CountedAlike (toolUses turn)) := by
  obtain ⟨live, folded, counted⟩ := counted_turn readings prompt.uuid wellFormed.roots wellFormed.unique
  obtain ⟨p, ids, noted⟩ := noted_turn rules wellFormed transcript
  refine ⟨live, folded, ?_⟩
  have unique := wellFormed.unique
  rw [counted.started]
  generalize toolUses turn = uses at noted unique
  have agree (before after : List ToolUse) (use : ToolUse) (split : uses = before ++ use :: after)
      (starts : startsTool use = true) :
      (historyIds rules (prompt :: rest)).lookup (use.id.getD "") =
          some (claudeTranscriptItemId prompt.uuid .tool (before.countP startsTool + 1)) ↔
        ∀ other ∈ before, countsInHistory other = true → startsTool other = true := by
    subst split
    have weaker : ∀ other ∈ before, startsTool other = true → countsInHistory other = true := by
      intro other _ starts
      obtain ⟨-, -, counts⟩ := startsTool_some starts
      exact counts
    rw [history_lookup ids noted unique starts, ← countP_eq_iff weaker]
    constructor
    · intro same
      have := tool_itemId_inj (Option.some.inj same)
      omega
    · intro same
      rw [same]
  constructor
  · intro all before use after split starts
    refine (agree before after use split starts).mp
      (all (_, claudeTranscriptItemId prompt.uuid .tool (before.countP startsTool + 1)) ?_)
    refine mem_map.mpr ⟨(use, before.countP startsTool + 1), mem_ordinals.mpr ?_, rfl⟩
    exact ⟨before, after, split, starts, by rw [Nat.zero_add]⟩
  · intro alike started member
    obtain ⟨⟨use, ordinal⟩, isCounted, rfl⟩ := mem_map.mp member
    obtain ⟨before, after, split, starts, is⟩ := mem_ordinals.mp isCounted
    rw [Nat.zero_add] at is
    rw [is]
    exact (agree before after use split starts).mpr (alike before use after split starts)

/-- Nothing is read out of arguments, results and texts. -/
def silentReadings : NativeReadings :=
  ⟨fun _ => false, fun _ => none, fun _ _ => none, fun _ _ => false, fun _ _ => false, fun _ => false,
    fun _ => none, fun _ => none⟩

def plainRules : TextRules :=
  ⟨fun _ => false, fun _ => false, fun _ => false, fun _ => false, fun _ => false, fun _ => none,
    fun _ => false⟩

/-- A message with one tool use, and the message with its result. -/
def usedTool (id name : String) : List NativeMessage :=
  [.assistant ⟨some id, none, some id, none, false,
      .blocks [.thinking (some []), .toolUse ⟨some id, some name, some (.object [])⟩]⟩,
    .user ⟨some (id ++ "-result"), none, .blocks [.toolResult ⟨some id, .absent, []⟩], none⟩]

def promptRecord : ClaudeHistoryMessage :=
  ⟨.user, "prompt", .text (Utf16.ofString "Go"), false, false, false, false, true⟩

/-- The records of the messages. -/
def recordsOf (turn : List NativeMessage) : List ClaudeHistoryMessage :=
  (turn.filterMap recordOf).map fun record =>
    ⟨record.1, "record", record.2, false, false, false, false, false⟩

theorem recordsOf_transcript (turn : List NativeMessage) :
    TranscriptOf turn promptRecord (recordsOf turn) := by
  refine ⟨rfl, rfl, rfl, ?_, ?_⟩
  · simp [recordsOf, Function.comp_def]
  · intro message member
    obtain ⟨record, -, rfl⟩ := mem_map.mp member
    exact ⟨rfl, rfl⟩

/-- Tools used one after the other. -/
def usedTools (uses : List (String × String)) : List NativeMessage :=
  uses.flatMap fun use => usedTool use.1 use.2

theorem usedTools_wellFormed (uses : List (String × String)) (unique : (uses.map Prod.fst).Nodup) :
    WellFormed (usedTools uses) := by
  have ids : toolUses (usedTools uses) = uses.map fun use => ⟨some use.1, some use.2, some (.object [])⟩ := by
    clear unique
    induction uses with
    | nil => rfl
    | cons use rest ih =>
      rw [toolUses, usedTools, flatMap_cons, flatMap_append, ← usedTools, ← toolUses, ← toolUses, ih]
      rfl
  refine ⟨?_, ?_, ?_⟩
  · intro message member
    obtain ⟨use, -, member⟩ := mem_flatMap.mp member
    simp only [usedTool, mem_cons, not_mem_nil, or_false] at member
    rcases member with rfl | rfl
    · exact ⟨rfl, nofun⟩
    · exact ⟨rfl, nofun⟩
  · rw [ids, filterMap_map]
    exact (filterMap_eq_map (f := Prod.fst)).symm ▸ unique
  · intro use member id isId
    rw [ids] at member
    obtain ⟨named, isUse, rfl⟩ := mem_map.mp member
    cases isId
    exact ⟨_, mem_flatMap.mpr ⟨named, isUse, mem_cons_of_mem _ (mem_singleton_self _)⟩,
      _, mem_singleton_self _, rfl⟩

theorem tool_ids_agree_plain :
    ∃ live, (usedTools [("a", "Bash"), ("b", "Read")]).foldlM (LiveTurn.receive silentReadings)
        (.new promptRecord.uuid) = .ok live ∧
      ((∀ started ∈ startedIds live.items, (historyIds plainRules (promptRecord ::
          recordsOf (usedTools [("a", "Bash"), ("b", "Read")]))).lookup started.1 = some started.2) ↔
        CountedAlike (toolUses (usedTools [("a", "Bash"), ("b", "Read")]))) :=
  tool_ids_agree (usedTools_wellFormed _ (by decide)) (recordsOf_transcript _)

/-- After a Workflow tool use the history gives a Tool Item another id than the live path. -/
theorem tool_ids_differ : ¬∀ (rules : TextRules) (readings : NativeReadings) (turn : List NativeMessage)
      (prompt : ClaudeHistoryMessage) (rest : List ClaudeHistoryMessage),
      WellFormed turn → TranscriptOf turn prompt rest →
      ∃ live, turn.foldlM (LiveTurn.receive readings) (.new prompt.uuid) = .ok live ∧
        ∀ started ∈ startedIds live.items,
          (historyIds rules (prompt :: rest)).lookup started.1 = some started.2 := by
  intro agree
  have wellFormed := usedTools_wellFormed [("w", "Workflow"), ("b", "Bash")] (by decide)
  obtain ⟨live, folded, same⟩ := agree plainRules silentReadings _ promptRecord _ wellFormed
    (recordsOf_transcript _)
  obtain ⟨live', folded', counted⟩ := counted_turn silentReadings promptRecord.uuid wellFormed.roots
    wellFormed.unique
  obtain rfl : live = live' := Except.ok.inj (folded.symm.trans folded')
  have started : ("b", "claude-item-v2-prompt-tool-1") ∈ startedIds live.items := by
    rw [counted.started]
    decide
  exact absurd (same _ started) (by decide)

end Identity

end CodexHost.Guarantees.ToolIdentity
