import CodexHost.Guarantees.JournalGrammar

/-!
# Conservation of narration

The text that the journal has of an Item, and after it the text of the blocks that are not yet
committed, is the text that was received for the Item. Blocks are committed before they are
forgotten; the stream of the active attempt holds their text.
-/
namespace CodexHost.Guarantees.Narration
open Foundation Source.SessionRuntime List Option Function
open Source.SessionRuntime.TurnProjector
open Guarantees.JournalGrammar

variable {Result : Type}

/-- The blocks that an entry writes. -/
def blocksOf : Entry Result → List MessageBlock
  | (.assistantMessage, .assistant _ _ blocks _) => blocks
  | _ => []

/-- The text of the Item in blocks. -/
def textOf (blocks : List MessageBlock) (id : String) : Text :=
  (blocks.filter (·.itemId = id)).flatMap (·.text)

/-- A block as a message would write it. -/
def written (block : NarrationBlock) : MessageBlock := ⟨block.itemId, block.kind, block.text⟩

/-- The blocks of the open Step. -/
def shown (p : TurnProjector Result) : List MessageBlock := p.blocks.map written

/-- The text of the Item in the journal, and after it in the blocks that are not committed. -/
def projected (journal : List (Entry Result)) (p : TurnProjector Result) (id : String) : Text :=
  textOf (journal.flatMap blocksOf ++ if p.messageCommitted then [] else shown p) id

/-- The text that the projector has of the Item. -/
def textSoFar (p : TurnProjector Result) (id : String) : Text :=
  ((p.narration id).map (·.text)).getD []

/-- The Step of the Item's last block. -/
def stepOf (p : TurnProjector Result) (id : String) : Option Nat := (p.narration id).bind (·.step)

/-- The text deltas of a block in a stream. -/
def deltas (stream : List Chunk) (index : Nat) : Text :=
  stream.flatMap fun
    | .delta i _ text => if i = index then text else []
    | _ => []

/-- The text of a block, if it exists. -/
def textAt (blocks : List MessageBlock) (index : Nat) : Text :=
  ((blocks[index]?).map (·.text)).getD []

/-- Text of the Item is among the blocks. -/
def Among (blocks : List MessageBlock) (id : String) : Prop :=
  ∃ block ∈ blocks, block.itemId = id ∧ block.text ≠ []

/-- Text of the Item stands in the message of the Step. -/
def PlacedIn (journal : List (Entry Result)) (turn : Nat) (id : String) (step : Nat) : Prop :=
  ∃ blocks calls, (.assistantMessage, .assistant turn step blocks calls) ∈ journal ∧ Among blocks id

/-- Text of the Item stands, or will stand, in the message of the Step. -/
def Placed (journal : List (Entry Result)) (p : TurnProjector Result) (id : String) (step : Nat) : Prop :=
  PlacedIn journal p.turn id step ∨ step = p.step ∧ p.messageCommitted = false ∧ Among (shown p) id

/-- A committed attempt has streamed the blocks of its message. -/
def Streamed (log : SessionLog (EventData Result)) (attempt : EndedAttempt) : Prop :=
  ∀ seq, attempt.committed = some seq → ∃ event ∈ log.events, event.seq = seq ∧
    ∃ turn step blocks calls, event.data = .assistant turn step blocks calls ∧
      ∀ index, deltas attempt.stream index = textAt blocks index

/-- The active attempt has streamed the blocks. -/
def Streams (p : TurnProjector Result) (blocks : List MessageBlock) : Prop :=
  ∃ attempt, p.log.attempt = some attempt ∧ ∀ index, deltas attempt.stream index = textAt blocks index

/-- The place is the last one of the Item. -/
def LastOf (ids : List String) (id : String) (index : Nat) : Prop :=
  ∃ earlier later, ids = earlier ++ id :: later ∧ earlier.length = index ∧ id ∉ later

def ids (p : TurnProjector Result) : List String := p.blocks.map (·.itemId)

/-- The text of every Item is projected, but for what is still owed. -/
structure Narrated (before : List (Entry Result)) (owed : String → Text) (p : TurnProjector Result)
    (journal : List (Entry Result)) : Prop where
  running : p.finished = false
  shape : entries p = before ++ journal
  stepOpen : p.stepOpen = true
  text : ∀ id, projected journal p id ++ owed id = textSoFar p id
  /-- The block of an Item is its last one. -/
  last : ∀ id index, p.blockByItem id = some index → LastOf (ids p) id index
  filled : p.messageCommitted = false → ∀ block ∈ shown p, block.text ≠ []
  placed : ∀ id step, stepOf p id = some step → Placed journal p id step
  idle : p.live = false ∨ p.messageCommitted = true ∨ shown p = [] → p.log.attempt = none
  streaming : p.live = true → p.messageCommitted = false → shown p ≠ [] → Streams p (shown p)
  ended : ∀ attempt ∈ p.log.ended, Streamed p.log attempt

/-- No Step is open: every text is in the journal. -/
structure Shelved (before : List (Entry Result)) (owed : String → Text) (p : TurnProjector Result)
    (journal : List (Entry Result)) : Prop where
  running : p.finished = false
  shape : entries p = before ++ journal
  text : ∀ id, textOf (journal.flatMap blocksOf) id ++ owed id = textSoFar p id
  placed : ∀ id step, stepOf p id = some step → PlacedIn journal p.turn id step
  idle : p.log.attempt = none
  ended : ∀ attempt ∈ p.log.ended, Streamed p.log attempt

section Texts
variable {blocks more : List MessageBlock} {id : String}

@[simp] theorem textOf_append : textOf (blocks ++ more) id = textOf blocks id ++ textOf more id := by
  simp [textOf]

theorem textOf_singleton (block : MessageBlock) (id : String) :
    textOf [block] id = if block.itemId = id then block.text else [] := by
  by_cases same : block.itemId = id <;> simp [textOf, same]

/-- Blocks of other Items. -/
theorem textOf_eq_nil (other : ∀ block ∈ blocks, block.itemId ≠ id) : textOf blocks id = [] := by
  rw [textOf, filter_eq_nil_iff.mpr fun block member => by simpa using other block member]
  rfl

@[simp] theorem deltas_append (stream : List Chunk) (chunk : Chunk) (index : Nat) :
    deltas (stream ++ [chunk]) index = deltas stream index ++ deltas [chunk] index := by
  simp [deltas]

theorem PlacedIn.append {journal : List (Entry Result)} {turn step : Nat}
    (placed : PlacedIn journal turn id step) (more : List (Entry Result)) :
    PlacedIn (journal ++ more) turn id step := by
  obtain ⟨blocks, calls, member, rest⟩ := placed
  exact ⟨blocks, calls, mem_append_left _ member, rest⟩

theorem Streamed.mono {log log' : SessionLog (EventData Result)} {attempt : EndedAttempt}
    (streamed : Streamed log attempt) (kept : ∀ event ∈ log.events, event ∈ log'.events) :
    Streamed log' attempt := by
  intro seq committed
  obtain ⟨event, member, rest⟩ := streamed seq committed
  exact ⟨event, kept event member, rest⟩

end Texts

section Quiet
variable {p p' p'' : TurnProjector Result} {more more' : List (Entry Result)}

/-- No text is projected: the entries that are appended have no blocks. -/
structure Quiet (p p' : TurnProjector Result) (more : List (Entry Result)) : Prop where
  entries : entries p' = entries p ++ more
  silent : more.flatMap blocksOf = []
  kept : ∀ event ∈ p.log.events, event ∈ p'.log.events
  finished : p'.finished = p.finished
  step : p'.step = p.step
  stepOpen : p'.stepOpen = p.stepOpen
  messageCommitted : p'.messageCommitted = p.messageCommitted
  turn : p'.turn = p.turn
  live : p'.live = p.live
  ids : ids p' = ids p
  shown : shown p' = shown p
  blockByItem : p'.blockByItem = p.blockByItem
  narration : p'.narration = p.narration
  ended : p'.log.ended = p.log.ended
  attempt : ∀ attempt, p.log.attempt = some attempt → ∃ attempt', p'.log.attempt = some attempt' ∧
    ∀ index, deltas attempt'.stream index = deltas attempt.stream index
  none : p.log.attempt = none → p'.log.attempt = none

theorem Quiet.trans (first : Quiet p p' more) (second : Quiet p' p'' more') :
    Quiet p p'' (more ++ more') := by
  refine ⟨?_, ?_, fun event member => second.kept event (first.kept event member),
    second.finished.trans first.finished, second.step.trans first.step,
    second.stepOpen.trans first.stepOpen, second.messageCommitted.trans first.messageCommitted,
    second.turn.trans first.turn, second.live.trans first.live, second.ids.trans first.ids,
    second.shown.trans first.shown, second.blockByItem.trans first.blockByItem,
    second.narration.trans first.narration, second.ended.trans first.ended,
    fun attempt is => ?_, fun is => second.none (first.none is)⟩
  · rw [second.entries, first.entries, append_assoc]
  · rw [flatMap_append, first.silent, second.silent, append_nil]
  · obtain ⟨attempt', is', deltas'⟩ := first.attempt attempt is
    obtain ⟨attempt'', is'', deltas''⟩ := second.attempt attempt' is'
    exact ⟨attempt'', is'', fun index => (deltas'' index).trans (deltas' index)⟩

/-- Only tools and early output change. -/
theorem Quiet.tools (p : TurnProjector Result) (tools : OrderedMap String ToolState)
    (earlyOutput : String → Option Text) (stepHasTools : Bool) :
    Quiet p { p with
        tools := tools
        earlyOutput := earlyOutput
        stepHasTools := stepHasTools } [] :=
  ⟨(append_nil _).symm, rfl, fun _ member => member, rfl, rfl, rfl, rfl, rfl, rfl, rfl, rfl,
    rfl, rfl, rfl, fun attempt is => ⟨attempt, is, fun _ => rfl⟩, id⟩

theorem Quiet.refl (p : TurnProjector Result) : Quiet p p [] :=
  .tools p p.tools p.earlyOutput p.stepHasTools

theorem append_quiet (p : TurnProjector Result) {type : EventType} {data : EventData Result}
    (silent : blocksOf (type, data) = []) (surface : Bool) (sources : Option (List Nat)) :
    Quiet p (p.append type data surface sources) [(type, data)] :=
  ⟨append_entries p type data surface sources, by simp [silent],
    fun _ member => mem_append_left _ member, rfl, rfl, rfl, rfl, rfl, rfl, rfl, rfl, rfl, rfl,
    rfl, fun attempt is => ⟨attempt, is, fun _ => rfl⟩, id⟩

theorem chunk_quiet (p : TurnProjector Result) {chunk : Chunk}
    (silent : ∀ index, deltas [chunk] index = []) : Quiet p (p.chunk chunk) [] := by
  unfold TurnProjector.chunk
  split
  · refine ⟨(append_nil _).symm, rfl, fun _ member => member, rfl, rfl, rfl, rfl, rfl, rfl,
      rfl, rfl, rfl, rfl, rfl,
      fun attempt is => ⟨{ attempt with stream := attempt.stream ++ [chunk] },
        by simp only [SessionLog.chunk, is, map_some], fun index => ?_⟩,
      fun is => by simp only [SessionLog.chunk, is, map_none]⟩
    rw [deltas_append, silent, append_nil]
  · exact .refl p

/-- A change that the view of the blocks does not show. -/
theorem map_modify_hidden {α : Type} (view : NarrationBlock → α) (blocks : List NarrationBlock)
    (index : Nat) (change : NarrationBlock → NarrationBlock)
    (hidden : ∀ block, view (change block) = view block) :
    (blocks.modify index change).map view = blocks.map view := by
  refine ext_getElem? fun other => ?_
  simp only [getElem?_map, getElem?_modify]
  split
  · cases blocks[other]? <;> simp [hidden]
  · simp

theorem endBlock_quiet (p : TurnProjector Result) (index : Nat) : Quiet p (p.endBlock index) [] := by
  unfold endBlock
  split
  · exact .refl p
  · split
    · exact .refl p
    · have ended : Quiet p (p.setEnded index) [] := by
        refine ⟨(append_nil _).symm, rfl, fun _ member => member, rfl, rfl, rfl, rfl, rfl,
          rfl, ?_, ?_, rfl, rfl, rfl, fun attempt is => ⟨attempt, is, fun _ => rfl⟩, id⟩
        · exact map_modify_hidden (·.itemId) p.blocks index _ fun _ => rfl
        · exact map_modify_hidden written p.blocks index _ fun _ => rfl
      exact ended.trans (chunk_quiet _ fun _ => rfl)

theorem endBlocks_quiet (p : TurnProjector Result) : Quiet p p.endBlocks [] := by
  unfold endBlocks
  induction List.range p.blocks.length generalizing p with
  | nil => exact .refl p
  | cons index rest ih => exact (endBlock_quiet p index).trans (ih _)

end Quiet

section Commits
variable {p p' : TurnProjector Result} {before journal : List (Entry Result)}
  {owed : String → Text} {more : List (Entry Result)}

theorem Narrated.quiet (sound : Narrated before owed p journal) (quiet : Quiet p p' more) :
    Narrated before owed p' (journal ++ more) := by
  obtain ⟨running, shape, stepOpen, text, last, filled, placed, idle, streaming, ended⟩ := sound
  refine ⟨quiet.finished.trans running, ?_, quiet.stepOpen.trans stepOpen, fun id => ?_, ?_, ?_,
    fun id step is => ?_, ?_, ?_, ?_⟩
  · rw [quiet.entries, shape, append_assoc]
  · rw [textSoFar, quiet.narration, ← textSoFar, ← text id, projected, projected, quiet.shown,
      quiet.messageCommitted, flatMap_append, quiet.silent, append_nil]
  · rw [quiet.blockByItem, quiet.ids]
    exact last
  · rw [quiet.messageCommitted, quiet.shown]
    exact filled
  · rw [stepOf, quiet.narration] at is
    rw [Placed, quiet.turn, quiet.step, quiet.messageCommitted, quiet.shown]
    exact (placed id step is).imp (·.append more) fun here => here
  · rw [quiet.live, quiet.messageCommitted, quiet.shown]
    exact fun why => quiet.none (idle why)
  · rw [quiet.live, quiet.messageCommitted, quiet.shown]
    intro live uncommitted some
    obtain ⟨attempt, is, streamed⟩ := streaming live uncommitted some
    obtain ⟨attempt', is', same⟩ := quiet.attempt attempt is
    exact ⟨attempt', is', fun index => (same index).trans (streamed index)⟩
  · rw [quiet.ended]
    exact fun attempt member => (ended attempt member).mono quiet.kept

theorem endAttempt_spec (log : SessionLog (EventData Result)) (committed : Option Nat) :
    (log.endAttempt committed).attempt = none ∧
    (log.endAttempt committed).events = log.events ∧
    ∀ ended ∈ (log.endAttempt committed).ended, ended ∈ log.ended ∨
      ∃ attempt, log.attempt = some attempt ∧ ended = ⟨attempt.attempt, attempt.stream, committed⟩ := by
  unfold SessionLog.endAttempt
  split
  · next none => exact ⟨none, rfl, fun ended member => .inl member⟩
  · next attempt is =>
    refine ⟨rfl, rfl, fun ended member => ?_⟩
    rcases mem_append.mp member with old | new
    · exact .inl old
    · exact .inr ⟨attempt, is, mem_singleton.mp new⟩

theorem content_eq (filled : ∀ block ∈ shown p, block.text ≠ []) : p.content = shown p := by
  unfold content shown
  rw [filter_eq_self.mpr]
  · rfl
  · intro block member
    have some : block.text ≠ [] := filled (written block) (mem_map_of_mem member)
    simp [some]

/-- The message that `commitMessage` appends. -/
theorem commitMessage_eq (filled : ∀ block ∈ shown p, block.text ≠ []) (calls : List (String × ToolCall)) :
    ∃ q, Quiet p q [] ∧ p.commitMessage calls =
      { q.append .assistantMessage (.assistant p.turn p.step (shown p) calls) true none with
        log := (q.log.append .assistantMessage (.assistant p.turn p.step (shown p) calls) true
          none).endAttempt (some (q.log.sequenceStart + q.log.events.length))
        messageCommitted := true } := by
  have quiet : Quiet p (p.endBlocks.chunk (.finish (!calls.isEmpty))) [] :=
    (endBlocks_quiet p).trans (chunk_quiet _ fun _ => rfl)
  have content : (p.endBlocks.chunk (.finish (!calls.isEmpty))).content = shown p := by
    rw [content_eq, quiet.shown]
    rw [quiet.shown]
    exact filled
  refine ⟨_, quiet, ?_⟩
  unfold commitMessage
  simp only [content, quiet.turn, quiet.step]
  rfl

/-- The message of a Step: its blocks, and the stream of its attempt. -/
theorem Narrated.commit (sound : Narrated before owed p journal)
    (uncommitted : p.messageCommitted = false) (calls : List (String × ToolCall)) :
    Narrated before owed (p.commitMessage calls)
      (journal ++ [(.assistantMessage, .assistant p.turn p.step (shown p) calls)]) ∧
    (p.commitMessage calls).narration = p.narration ∧
    (p.commitMessage calls).turn = p.turn ∧ (p.commitMessage calls).live = p.live := by
  obtain ⟨q, quiet, defined⟩ := commitMessage_eq (sound.filled uncommitted) calls
  rw [defined]
  have still : Narrated before owed q (journal ++ []) := sound.quiet quiet
  rw [append_nil] at still
  obtain ⟨noAttempt, events, past⟩ := endAttempt_spec
    (q.log.append .assistantMessage (.assistant p.turn p.step (shown p) calls) true none)
    (some (q.log.sequenceStart + q.log.events.length))
  have uncommitted' : q.messageCommitted = false := quiet.messageCommitted.trans uncommitted
  refine ⟨⟨still.running, ?_, still.stepOpen, fun id => ?_, still.last, nofun,
    fun id step is => .inl ?_, fun _ => noAttempt, nofun, fun attempt member => ?_⟩,
    quiet.narration, quiet.turn, quiet.live⟩
  · have appended := append_entries q .assistantMessage (.assistant p.turn p.step (shown p) calls) true none
    rw [still.shape, append_assoc] at appended
    rw [← appended]
    simp only [entries, events]
    rfl
  · have text : projected journal q id ++ owed id = textSoFar q id := still.text id
    rw [projected, uncommitted'] at text
    refine Eq.trans ?_ text
    simp [projected, blocksOf, quiet.shown]
  · -- what was to stand in the message of the Step does so now
    have placed : Placed journal q id step := still.placed id step is
    rcases placed with old | ⟨rfl, -, among⟩
    · exact old.append _
    · refine ⟨shown p, calls, mem_append_right _ (mem_singleton.mpr ?_), ?_⟩
      · rw [quiet.step]
        simp only [TurnProjector.append, quiet.turn]
      · rw [← quiet.shown]
        exact among
  · rcases past attempt member with old | ⟨active, is, rfl⟩
    · refine (still.ended attempt old).mono fun event inside => ?_
      rw [events]
      exact mem_append_left _ inside
    · intro seq committed
      cases committed
      refine ⟨_, by rw [events]; exact mem_append_right _ (mem_singleton_self _), rfl,
        p.turn, p.step, shown p, calls, rfl, ?_⟩
      -- an attempt is active only while its blocks stream
      have active' : q.log.attempt = some active := is
      have live : q.live = true ∧ shown q ≠ [] := by
        constructor
        · by_contra dead
          rw [still.idle (.inl (by simpa using dead))] at active'
          cases active'
        · intro empty
          rw [still.idle (.inr (.inr empty))] at active'
          cases active'
      obtain ⟨attempt, is', streamed⟩ := still.streaming live.1 uncommitted' live.2
      rw [active'] at is'
      cases is'
      rw [← quiet.shown]
      exact streamed

end Commits

section Steps
variable {p : TurnProjector Result} {before journal : List (Entry Result)} {owed : String → Text}

theorem endAttempt_idle (log : SessionLog (EventData Result)) (idle : log.attempt = none)
    (committed : Option Nat) : log.endAttempt committed = log := by
  unfold SessionLog.endAttempt
  rw [idle]

/-- The end of a Step whose blocks are committed, or that has none. -/
theorem Narrated.shelve (sound : Narrated before owed p journal)
    (done : p.messageCommitted = true ∨ shown p = []) (data : EventData Result) :
    Shelved before owed { p.append .stepEnd data false none with stepOpen := false }
      (journal ++ [(.stepEnd, data)]) := by
  have still : Narrated before owed (p.append .stepEnd data false none)
      (journal ++ [(.stepEnd, data)]) := sound.quiet (append_quiet p rfl false none)
  have hidden : (if p.messageCommitted then [] else shown p) = [] := by
    rcases done with committed | empty
    · rw [if_pos committed]
    · rw [empty, ite_self]
  refine ⟨still.running, still.shape, fun id => ?_, fun id step is => ?_, still.idle (.inr done),
    still.ended⟩
  · have text : projected _ p id ++ owed id = textSoFar p id := still.text id
    rw [projected, hidden, append_nil] at text
    exact text
  · rcases still.placed id step is with old | ⟨-, uncommitted, block, member, -⟩
    · exact old
    · have uncommitted : p.messageCommitted = false := uncommitted
      have member : block ∈ shown p := member
      rcases done with committed | empty
      · rw [committed] at uncommitted
        cases uncommitted
      · rw [empty] at member
        cases member

theorem Narrated.closeStep (sound : Narrated before owed p journal) :
    ∃ journal', Shelved before owed p.closeStep journal' ∧ p.closeStep.narration = p.narration ∧
      p.closeStep.turn = p.turn ∧ p.closeStep.live = p.live := by
  unfold TurnProjector.closeStep
  simp only [sound.stepOpen, Bool.not_true, Bool.false_eq_true, if_false]
  split
  · next some =>
    simp only [Bool.and_eq_true, Bool.not_eq_true'] at some
    obtain ⟨committed, same⟩ := sound.commit some.1 []
    exact ⟨_, committed.shelve (.inl rfl) _, same⟩
  · next none =>
    have done : p.messageCommitted = true ∨ shown p = [] := by
      by_contra open'
      rw [not_or] at open'
      have uncommitted : p.messageCommitted = false := by simpa using open'.1
      refine none ?_
      obtain ⟨block, member⟩ := List.exists_mem_of_ne_nil _ open'.2
      obtain ⟨source, inside, rfl⟩ := List.mem_map.mp member
      have text : source.text ≠ [] := sound.filled uncommitted _ member
      simp only [uncommitted, Bool.not_false, Bool.true_and, List.any_eq_true, decide_eq_true_eq]
      exact ⟨source, inside, text⟩
    rw [endAttempt_idle p.log (sound.idle (.inr done))]
    exact ⟨_, sound.shelve done _, rfl, rfl, rfl⟩

theorem Shelved.openStep (sound : Shelved before owed p journal) :
    Narrated before owed p.openStep (journal ++ [(.stepStart, .step p.turn (p.step + 1))]) := by
  obtain ⟨running, shape, text, placed, idle, ended⟩ := sound
  refine ⟨running, ?_, rfl, fun id => ?_, nofun, fun _ => nofun,
    fun id step is => .inl ((placed id step is).append _), fun _ => idle,
    fun _ _ some => absurd rfl some,
    fun attempt member => (ended attempt member).mono fun event => mem_append_left _⟩
  · rw [(openStep_spec p).1, shape, append_assoc]
  · rw [show textSoFar p.openStep id = textSoFar p id from rfl, ← text id]
    simp [projected, blocksOf, shown, TurnProjector.openStep, TurnProjector.append]

variable (sound : Narrated before owed p journal)
include sound

/-- A Step ends and the next one starts. -/
theorem Narrated.nextStep :
    ∃ journal', Narrated before owed p.closeStep.openStep journal' ∧
      p.closeStep.openStep.narration = p.narration := by
  obtain ⟨journal', shelved, narration, -⟩ := sound.closeStep
  exact ⟨_, shelved.openStep, narration⟩

theorem Narrated.userMessage (content : List InputPart)
    (rpcId : Option String) :
    ∃ journal', Narrated before owed (p.userMessage content rpcId) journal' :=
  ⟨_, sound.quiet (append_quiet p rfl true none)⟩

theorem Narrated.steer (content : List InputPart)
    (requestId : Option String) :
    ∃ journal', Narrated before owed (p.steer content requestId) journal' ∧
      (p.steer content requestId).narration = p.narration := by
  unfold TurnProjector.steer
  rw [if_neg (by simp [sound.running])]
  obtain ⟨_, next, narration⟩ := sound.nextStep
  obtain ⟨journal', still⟩ := next.userMessage content requestId
  exact ⟨journal', still, narration⟩

/-- A tool starts: the message with its call is committed. -/
theorem Narrated.startTool (itemId : String) (item : ToolItem) :
    ∃ journal', Narrated before owed (p.startTool itemId item) journal' ∧
      (p.startTool itemId item).narration = p.narration := by
  unfold TurnProjector.startTool
  split
  · exact ⟨journal, sound, rfl⟩
  · simp only [sound.stepOpen, if_true]
    split
    · have appended : Quiet p (p.append .toolCall
          (.call p.turn p.step itemId (p.view.toolCallOf item)) false none) _ :=
        append_quiet p rfl false none
      exact ⟨_, sound.quiet (appended.trans (.tools _ _ _ _)), rfl⟩
    · next uncommitted =>
      have uncommitted : p.messageCommitted = false := by simpa using uncommitted
      obtain ⟨committed, narration, -⟩ :=
        sound.commit uncommitted [(itemId, p.view.toolCallOf item)]
      generalize p.commitMessage [(itemId, p.view.toolCallOf item)] = q at committed narration
      have appended : Quiet q (q.append .toolCall
          (.call q.turn q.step itemId (p.view.toolCallOf item)) false none) _ :=
        append_quiet q rfl false none
      exact ⟨_, committed.quiet (appended.trans (.tools _ _ _ _)), narration⟩

theorem Narrated.settleTool (itemId : String)
    (item : ToolItem) (outcome : HostItemOutcome) :
    ∃ journal', Narrated before owed (p.settleTool itemId item outcome) journal' ∧
      (p.settleTool itemId item outcome).narration = p.narration := by
  unfold TurnProjector.settleTool
  split
  · exact ⟨journal, sound, rfl⟩
  · exact ⟨_, sound.quiet ((Quiet.tools p (p.tools.delete itemId) p.earlyOutput
      p.stepHasTools).trans (append_quiet _ rfl true _)), rfl⟩

end Steps

variable {index : Nat}

section Texts
variable {p p' p'' : TurnProjector Result} {before journal : List (Entry Result)} {id : String}

/-- Only this Item is owed text. -/
def owedTo (id : String) (text : Text) (other : String) : Text := if other = id then text else []

/-- No text is owed. -/
def settled (_ : String) : Text := []

/-- All but the active attempt is the same. -/
structure Alike (p p' : TurnProjector Result) : Prop where
  same : SameJournal p p'
  blocks : p'.blocks = p.blocks
  blockByItem : p'.blockByItem = p.blockByItem
  narration : p'.narration = p.narration
  live : p'.live = p.live
  ended : p'.log.ended = p.log.ended

theorem Alike.trans (first : Alike p p') (second : Alike p' p'') : Alike p p'' :=
  ⟨first.same.trans second.same, second.blocks.trans first.blocks,
    second.blockByItem.trans first.blockByItem, second.narration.trans first.narration,
    second.live.trans first.live, second.ended.trans first.ended⟩

theorem chunk_alike (p : TurnProjector Result) (chunk : Chunk) : Alike p (p.chunk chunk) := by
  refine ⟨chunk_same p chunk, ?_, ?_, ?_, ?_, ?_⟩ <;> unfold TurnProjector.chunk <;> split <;> rfl

theorem ensureAttempt_alike (p : TurnProjector Result) : Alike p p.ensureAttempt := by
  refine ⟨ensureAttempt_same p, ?_, ?_, ?_, ?_, ?_⟩ <;> unfold ensureAttempt <;> split <;> rfl

theorem newBlock_alike (p : TurnProjector Result) (itemId : String) (kind : BlockKind) :
    Alike (p.addBlock itemId kind) (p.newBlock itemId kind) :=
  (ensureAttempt_alike _).trans (chunk_alike _ _)

theorem appendText_eq {block : NarrationBlock} (is : p.blocks[index]? = some block) (text : Text) :
    p.appendText index text = (p.addText index text).chunk (.delta index block.kind text) := by
  unfold appendText
  rw [is]

/-- A chunk goes to the active attempt. -/
theorem Streams.chunk {blocks blocks' : List MessageBlock} {chunk : Chunk}
    (streams : Streams p blocks) (live : p.live = true)
    (longer : ∀ index, textAt blocks' index = textAt blocks index ++ deltas [chunk] index) :
    Streams (p.chunk chunk) blocks' := by
  obtain ⟨attempt, is, streamed⟩ := streams
  refine ⟨{ attempt with stream := attempt.stream ++ [chunk] }, ?_, fun index => ?_⟩
  · unfold TurnProjector.chunk
    simp only [live, if_true, SessionLog.chunk, is, map_some]
  · rw [deltas_append, streamed, longer]

theorem ensureAttempt_streams {blocks : List MessageBlock} (live : p.live = true)
    (streams : blocks ≠ [] → Streams p blocks) (idle : blocks = [] → p.log.attempt = none) :
    Streams p.ensureAttempt blocks := by
  unfold ensureAttempt
  by_cases empty : blocks = []
  · have none : p.log.attempt = none := idle empty
    rw [if_pos (by simp [live, none])]
    refine ⟨_, rfl, fun index => ?_⟩
    simp [deltas, textAt, empty]
  · obtain ⟨attempt, is, streamed⟩ := streams empty
    rw [if_neg (by simp [is])]
    exact ⟨attempt, is, streamed⟩

theorem chunk_dead (dead : p.live = false) (chunk : Chunk) : p.chunk chunk = p := by
  unfold TurnProjector.chunk
  simp [dead]

theorem ensureAttempt_dead (dead : p.live = false) : p.ensureAttempt = p := by
  unfold ensureAttempt
  simp [dead]

theorem modify_split {α : Type} (earlier : List α) (entry : α) (later : List α) (change : α → α) :
    (earlier ++ entry :: later).modify earlier.length change = earlier ++ change entry :: later := by
  induction earlier with
  | nil => rfl
  | cons first rest ih => simp [ih]

/-- The last block of an Item grows: its text does, at the end. -/
theorem textOf_grown {blocks : List NarrationBlock} {index : Nat}
    (last : LastOf (blocks.map (·.itemId)) id index) (text : Text) (other : String) :
    textOf ((blocks.modify index fun block =>
        { block with text := block.text ++ text }).map written) other =
      textOf (blocks.map written) other ++ owedTo id text other := by
  obtain ⟨earlier, later, split, length, absent⟩ := last
  obtain ⟨front, back, rfl, rfl, tail⟩ := map_eq_append_iff.mp split
  obtain ⟨block, rest, rfl, rfl, rfl⟩ := map_eq_cons_iff.mp tail
  rw [length_map] at length
  rw [← length, modify_split]
  simp only [map_append, map_cons, textOf_append, owedTo,
    ← singleton_append (l := rest.map written), textOf_singleton, written, append_assoc]
  have none : block.itemId = other → textOf (rest.map written) other = [] := by
    rintro rfl
    refine textOf_eq_nil fun block' member same => absent ?_
    obtain ⟨source, inside, rfl⟩ := mem_map.mp member
    exact mem_map.mpr ⟨source, inside, same⟩
  by_cases here : block.itemId = other
  · simp [here, none here]
  · simp [here, Ne.symm here]

theorem textAt_snoc (blocks : List MessageBlock) (block : MessageBlock) (index : Nat) :
    textAt (blocks ++ [block]) index =
      textAt blocks index ++ if blocks.length = index then block.text else [] := by
  unfold textAt
  rcases Nat.lt_trichotomy index blocks.length with inside | rfl | outside
  · rw [getElem?_append_left inside, if_neg (by omega), append_nil]
  · simp
  · rw [getElem?_eq_none (by simp; omega), getElem?_eq_none (by omega), if_neg (by omega)]
    rfl

theorem textAt_modify (blocks : List NarrationBlock) (inside : index < blocks.length)
    (text : Text) (other : Nat) :
    textAt ((blocks.modify index fun block =>
        { block with text := block.text ++ text }).map written) other =
      textAt (blocks.map written) other ++ if index = other then text else [] := by
  simp only [textAt, getElem?_map, getElem?_modify]
  by_cases here : index = other
  · subst here
    simp [getElem?_eq_getElem inside, written]
  · simp [here]

/-- The text that an Item is owed goes to its last block. -/
theorem Narrated.grow {text : Text} (sound : Narrated before (owedTo id text) p journal)
    (uncommitted : p.messageCommitted = false) (same : SameJournal p p') (live : p'.live = p.live)
    (ended : p'.log.ended = p.log.ended) (texts : ∀ other, textSoFar p' other = textSoFar p other)
    (grown : ∀ other, textOf (shown p') other = textOf (shown p) other ++ owedTo id text other)
    (last : ∀ other index, p'.blockByItem other = some index → LastOf (ids p') other index)
    (filled : ∀ block ∈ shown p', block.text ≠ [])
    (steps : ∀ other step, stepOf p' other = some step →
      stepOf p other = some step ∨ other = id ∧ step = p.step)
    (among : ∀ other, Among (shown p) other ∨ other = id → Among (shown p') other)
    (idle : p.live = false → p'.log.attempt = none)
    (streaming : p.live = true → Streams p' (shown p')) : Narrated before settled p' journal := by
  have some : shown p' ≠ [] := by
    obtain ⟨block, member, -⟩ := among id (.inr rfl)
    exact ne_nil_of_mem member
  refine ⟨same.finished.trans sound.running, same.entries.trans sound.shape,
    same.stepOpen.trans sound.stepOpen, fun other => ?_, last, fun _ => filled,
    fun other step is => ?_, ?_, fun alive _ _ => streaming (live ▸ alive), ?_⟩
  · rw [texts, ← sound.text other, projected, projected, same.messageCommitted, uncommitted,
      settled, append_nil]
    simp [grown]
  · rw [Placed, same.turn, same.step, same.messageCommitted]
    rcases steps other step is with old | ⟨rfl, rfl⟩
    · exact (sound.placed other step old).imp_right fun ⟨here, open', there⟩ =>
        ⟨here, open', among other (.inl there)⟩
    · exact .inr ⟨rfl, uncommitted, among other (.inr rfl)⟩
  · rw [live, same.messageCommitted, uncommitted]
    rintro (dead | committed | empty)
    · exact idle dead
    · cases committed
    · exact absurd empty some
  · rw [ended]
    exact fun attempt member => (sound.ended attempt member).mono fun event inside => by
      rw [same.events]
      exact inside

end Texts

section Appends
variable {p : TurnProjector Result} {before journal : List (Entry Result)} {id : String} {text : Text}

theorem addText_ids (p : TurnProjector Result) (index : Nat) (text : Text) :
    ids (p.addText index text) = ids p :=
  map_modify_hidden (·.itemId) p.blocks index _ fun _ => rfl

theorem mem_modify {α : Type} {entries : List α} {change : α → α} {entry : α}
    (member : entry ∈ entries.modify index change) :
    ∃ source ∈ entries, entry = source ∨ entry = change source := by
  obtain ⟨other, is⟩ := List.mem_iff_getElem?.mp member
  rw [List.getElem?_modify, Option.map_eq_map, Option.map_eq_some_iff] at is
  obtain ⟨source, is, changed⟩ := is
  refine ⟨source, List.mem_of_getElem? is, ?_⟩
  split at changed
  · exact .inr changed.symm
  · exact .inl changed.symm

theorem among_of_textOf {blocks : List MessageBlock} (some : textOf blocks id ≠ []) : Among blocks id := by
  obtain ⟨unit, member⟩ := exists_mem_of_ne_nil _ some
  obtain ⟨block, inside, here⟩ := mem_flatMap.mp member
  obtain ⟨there, same⟩ := mem_filter.mp inside
  exact ⟨block, there, by simpa using same, ne_nil_of_mem here⟩

theorem textOf_of_among {blocks : List MessageBlock} (among : Among blocks id) : textOf blocks id ≠ [] := by
  obtain ⟨block, member, same, some⟩ := among
  obtain ⟨unit, inside⟩ := exists_mem_of_ne_nil _ some
  exact ne_nil_of_mem (mem_flatMap.mpr ⟨block, mem_filter.mpr ⟨member, by simpa using same⟩, inside⟩)

theorem among_grown {blocks blocks' : List MessageBlock} (text : Text) (some : text ≠ [])
    (grown : ∀ other, textOf blocks' other = textOf blocks other ++ owedTo id text other)
    (other : String) (there : Among blocks other ∨ other = id) : Among blocks' other := by
  refine among_of_textOf ?_
  rw [grown]
  rcases there with old | rfl
  · exact append_ne_nil_of_left_ne_nil (textOf_of_among old) _
  · exact append_ne_nil_of_right_ne_nil _ (by simpa [owedTo] using some)

theorem Narrated.extend (sound : Narrated before (owedTo id text) p journal)
    (nonempty : text ≠ []) (existing : p.existing id = some index) :
    Narrated before settled (p.appendText index text) journal := by
  obtain ⟨isBlock, writable⟩ := filter_eq_some_iff.mp existing
  simp only [Bool.and_eq_true, Bool.not_eq_true'] at writable
  obtain ⟨⟨-, uncommitted⟩, -⟩ := writable
  have last : LastOf (ids p) id index := sound.last id index isBlock
  have inside : index < p.blocks.length := by
    obtain ⟨earlier, later, split, length, -⟩ := last
    have lengths := congrArg List.length split
    simp only [ids, length_map, length_append, length_cons] at lengths
    omega
  rw [appendText_eq (getElem?_eq_getElem inside)]
  have added : SameJournal p (p.addText index text) := ⟨rfl, rfl, rfl, rfl, rfl, rfl, rfl, rfl⟩
  have alike := chunk_alike (p.addText index text) (.delta index p.blocks[index].kind text)
  have shown' : shown ((p.addText index text).chunk
      (.delta index p.blocks[index].kind text)) = shown (p.addText index text) := by
    rw [shown, alike.blocks, shown]
  have grown := @textOf_grown id p.blocks index last text
  refine sound.grow uncommitted (added.trans alike.same) alike.live alike.ended (fun other => ?_)
    ?_ ?_ ?_ (fun other step is => .inl ?_) ?_ (fun dead => ?_) (fun live => ?_)
  · rw [textSoFar, alike.narration]
    rfl
  · rw [shown']
    exact grown
  · have same : ids (p.addText index text) = ids p := addText_ids p index text
    rw [ids, alike.blocks, alike.blockByItem, ← ids, same]
    exact sound.last
  · rw [shown']
    intro block member
    obtain ⟨source, inside', rfl⟩ := mem_map.mp member
    obtain ⟨origin, member, rfl | rfl⟩ := mem_modify inside'
    · exact sound.filled uncommitted _ (mem_map_of_mem member)
    · exact append_ne_nil_of_right_ne_nil _ nonempty
  · rw [stepOf, alike.narration] at is
    exact is
  · rw [shown']
    exact among_grown text nonempty grown
  · rw [chunk_dead (p := p.addText index text) dead]
    exact sound.idle (.inl dead)
  · rw [shown']
    have streams : Streams p (shown p) := by
      refine sound.streaming live uncommitted ?_
      exact ne_nil_of_mem (mem_map_of_mem (get_mem p.blocks ⟨index, inside⟩))
    refine Streams.chunk (p := p.addText index text) streams live fun other => ?_
    refine (textAt_modify p.blocks inside text other).trans ?_
    simp [shown, deltas]

theorem newBlock_blocks (p : TurnProjector Result) (itemId : String) (kind : BlockKind) :
    (p.newBlock itemId kind).blocks = p.blocks ++ [⟨itemId, kind, p.blocks.length, [], false⟩] :=
  (newBlock_alike p itemId kind).blocks

theorem LastOf.snoc {ids : List String} {index : Nat} (last : LastOf ids id index) {other : String}
    (different : other ≠ id) : LastOf (ids ++ [other]) id index := by
  obtain ⟨earlier, later, rfl, length, absent⟩ := last
  exact ⟨earlier, later ++ [other], by simp, length, by simp [absent, different.symm]⟩

theorem stepOf_noteStep (p : TurnProjector Result) {other : String} {step : Nat}
    (is : stepOf (p.noteStep id) other = some step) :
    stepOf p other = some step ∨ other = id ∧ step = p.step := by
  by_cases here : other = id
  · subst here
    refine .inr ⟨rfl, ?_⟩
    simp only [stepOf, noteStep, update_self, bind_map] at is
    obtain ⟨state, -, same⟩ := bind_eq_some_iff.mp is
    exact (some_inj.mp same).symm
  · simp only [stepOf, noteStep, update_of_ne here] at is
    exact .inl is

theorem textSoFar_noteStep (p : TurnProjector Result) (id other : String) :
    textSoFar (p.noteStep id) other = textSoFar p other := by
  by_cases here : other = id
  · subst here
    simp [textSoFar, noteStep, comp_def]
  · simp [textSoFar, noteStep, here]

theorem Narrated.fresh (sound : Narrated before (owedTo id text) p journal) (some : text ≠ [])
    (uncommitted : p.messageCommitted = false) (kind : BlockKind) :
    Narrated before settled
      (((p.noteStep id).newBlock id kind).appendText (p.noteStep id).blocks.length text) journal := by
  have newest : ((p.noteStep id).newBlock id kind).blocks[(p.noteStep id).blocks.length]? =
      Option.some ⟨id, kind, p.blocks.length, [], false⟩ := by
    rw [newBlock_blocks]
    exact getElem?_concat_length
  rw [appendText_eq newest]
  have noted : SameJournal p ((p.noteStep id).addBlock id kind) :=
    ⟨rfl, rfl, rfl, rfl, rfl, rfl, rfl, rfl⟩
  have opened := newBlock_alike (p.noteStep id) id kind
  have added : SameJournal ((p.noteStep id).newBlock id kind)
      (((p.noteStep id).newBlock id kind).addText (p.noteStep id).blocks.length text) :=
    ⟨rfl, rfl, rfl, rfl, rfl, rfl, rfl, rfl⟩
  have alike := chunk_alike (((p.noteStep id).newBlock id kind).addText (p.noteStep id).blocks.length text)
    (.delta (p.noteStep id).blocks.length kind text)
  have blocks : (((p.noteStep id).newBlock id kind).addText (p.noteStep id).blocks.length
      text).blocks = p.blocks ++ [⟨id, kind, p.blocks.length, text, false⟩] := by
    rw [addText, newBlock_blocks]
    exact modify_split p.blocks _ [] _
  generalize hq : ((p.noteStep id).newBlock id kind).addText (p.noteStep id).blocks.length text = q
    at added alike blocks
  have shown' : shown (q.chunk (.delta (p.noteStep id).blocks.length kind text)) =
      shown p ++ [⟨id, kind, text⟩] := by
    rw [shown, alike.blocks, blocks, map_append]
    rfl
  have grown : ∀ other, textOf (shown p ++ [⟨id, kind, text⟩]) other =
      textOf (shown p) other ++ owedTo id text other := by
    intro other
    rw [textOf_append, textOf_singleton, owedTo]
    simp only [eq_comm]
  have narration : q.narration = (p.noteStep id).narration := by
    rw [← hq]
    exact opened.narration
  refine sound.grow uncommitted (noted.trans (opened.same.trans (added.trans alike.same))) ?_ ?_
    (fun other => ?_) ?_ ?_ ?_ (fun other step is => ?_) ?_ (fun dead => ?_) (fun live => ?_)
  · rw [alike.live, ← hq]
    exact opened.live
  · rw [alike.ended, ← hq]
    exact opened.ended
  · rw [textSoFar, alike.narration, narration]
    exact textSoFar_noteStep p id other
  · rw [shown']
    exact grown
  · rw [ids, alike.blocks, blocks, alike.blockByItem, ← hq, map_append]
    intro other index is
    have is : ((p.noteStep id).newBlock id kind).blockByItem other = Option.some index := is
    rw [opened.blockByItem] at is
    simp only [addBlock] at is
    by_cases here : other = id
    · subst here
      rw [update_self] at is
      cases is
      exact ⟨ids p, [], rfl, by simp [ids, noteStep], not_mem_nil⟩
    · rw [update_of_ne here] at is
      exact (sound.last other index is).snoc (Ne.symm here)
  · rw [shown']
    intro block member
    rcases mem_append.mp member with old | new
    · exact sound.filled uncommitted block old
    · rw [mem_singleton.mp new]
      exact some
  · rw [stepOf, alike.narration, narration] at is
    exact stepOf_noteStep p is
  · rw [shown']
    exact among_grown text some grown
  · have idle : p.log.attempt = none := sound.idle (.inl dead)
    rw [← hq, chunk_dead (by rw [← hq] at alike; exact opened.live.trans dead)]
    simp only [addText, newBlock]
    rw [ensureAttempt_dead (p := (p.noteStep id).addBlock id kind) dead,
      chunk_dead (p := (p.noteStep id).addBlock id kind) dead]
    exact idle
  · rw [shown']
    have started : Streams ((p.noteStep id).addBlock id kind).ensureAttempt (shown p) := by
      refine ensureAttempt_streams live (fun nonempty => ?_) fun empty => ?_
      · exact sound.streaming live uncommitted nonempty
      · exact sound.idle (.inr (.inr empty))
    have ready : ((p.noteStep id).addBlock id kind).ensureAttempt.live = true :=
      (ensureAttempt_alike _).live.trans live
    have announced : Streams ((p.noteStep id).newBlock id kind) (shown p) :=
      started.chunk ready fun index => (append_nil _).symm
    rw [← hq]
    refine Streams.chunk (p := ((p.noteStep id).newBlock id kind).addText _ text) announced
      (opened.live.trans live) fun index => ?_
    rw [textAt_snoc]
    simp [shown, deltas, noteStep]

end Appends

section Calls
variable {p : TurnProjector Result} {before journal : List (Entry Result)} {id : String}

/-- The Item has been started or completed as narration. -/
def known (p : TurnProjector Result) (id : String) : Bool := (p.narration id).isSome

theorem textSoFar_noteText (isKnown : known p id = true) (text : Text) (other : String) :
    textSoFar (p.noteText id text) other = textSoFar p other ++ owedTo id text other := by
  by_cases here : other = id
  · subst here
    obtain ⟨state, is⟩ := isSome_iff_exists.mp isKnown
    simp [textSoFar, noteText, owedTo, is]
  · simp [textSoFar, noteText, owedTo, here]

theorem stepOf_noteText (p : TurnProjector Result) (id : String) (text : Text) (other : String) :
    stepOf (p.noteText id text) other = stepOf p other := by
  by_cases here : other = id
  · subst here
    simp [stepOf, noteText, bind_map, comp_def]
  · simp [stepOf, noteText, here]

theorem known_noteText (p : TurnProjector Result) (id : String) (text : Text) (other : String) :
    known (p.noteText id text) other = known p other := by
  by_cases here : other = id
  · subst here
    simp [known, noteText]
  · simp [known, noteText, here]

theorem known_noteStep (p : TurnProjector Result) (id other : String) :
    known (p.noteStep id) other = known p other := by
  by_cases here : other = id
  · subst here
    simp [known, noteStep]
  · simp [known, noteStep, here]

theorem Narrated.noteText (sound : Narrated before settled p journal) (isKnown : known p id = true)
    (text : Text) : Narrated before (owedTo id text) (p.noteText id text) journal := by
  refine ⟨sound.running, sound.shape, sound.stepOpen, fun other => ?_, sound.last, sound.filled,
    fun other step is => ?_, sound.idle, sound.streaming, sound.ended⟩
  · rw [textSoFar_noteText isKnown, ← sound.text other, settled, append_nil]
    rfl
  · rw [stepOf_noteText] at is
    exact sound.placed other step is

theorem appendText_narration (p : TurnProjector Result) (index : Nat) (text : Text) :
    (p.appendText index text).narration = p.narration := by
  unfold appendText
  split
  · rfl
  · exact (chunk_alike _ _).narration

theorem Narrated.stepFor {owed : String → Text} (sound : Narrated before owed p journal) (id : String) :
    ∃ journal', Narrated before owed (p.stepFor id) journal' ∧
      (p.stepFor id).messageCommitted = false ∧ (p.stepFor id).narration = p.narration := by
  unfold TurnProjector.stepFor
  split
  · obtain ⟨journal', next, narration⟩ := sound.nextStep
    exact ⟨journal', next, rfl, narration⟩
  · next fits =>
    simp only [needsStep, Bool.or_eq_true, not_or] at fits
    exact ⟨journal, sound, by simpa using fits.1.2, rfl⟩

/-- Text is received for an Item. -/
theorem Narrated.appendNarration (sound : Narrated before settled p journal)
    (isKnown : known p id = true) (text : Text) :
    ∃ journal', Narrated before settled (p.appendNarration id text) journal' ∧
      (∀ other, textSoFar (p.appendNarration id text) other = textSoFar p other ++ owedTo id text other) ∧
      ∀ other, known (p.appendNarration id text) other = known p other := by
  unfold TurnProjector.appendNarration
  split
  · next empty =>
    refine ⟨journal, sound, fun other => ?_, fun _ => rfl⟩
    simp [owedTo, empty]
  · next nonempty =>
    have owing := sound.noteText isKnown text
    have texts := textSoFar_noteText isKnown text
    have knowns := known_noteText p id text
    generalize p.noteText id text = q at owing texts knowns
    unfold writableBlock
    cases existing : q.existing id with
    | some index =>
      simp only
      refine ⟨journal, owing.extend nonempty existing, fun other => ?_, fun other => ?_⟩
      · rw [← texts, textSoFar, appendText_narration, textSoFar]
      · rw [← knowns, known, appendText_narration, known]
    | none =>
      simp only
      obtain ⟨journal', ready, uncommitted, narration⟩ := owing.stepFor id
      have narration' : ∀ kind index, ((((q.stepFor id).noteStep id).newBlock id kind).appendText
          index text).narration = ((q.stepFor id).noteStep id).narration := fun kind index =>
        (appendText_narration _ _ _).trans (newBlock_alike _ _ _).narration
      refine ⟨journal', ready.fresh nonempty uncommitted (q.kindOf id), fun other => ?_,
        fun other => ?_⟩
      · rw [← texts, textSoFar, narration', ← textSoFar, textSoFar_noteStep, textSoFar, narration, textSoFar]
      · rw [← knowns, known, narration', ← known, known_noteStep, known, narration, known]

theorem Narrated.seen (sound : Narrated before settled p journal) (kind : BlockKind) (id : String) :
    Narrated before settled (p.seen kind id) journal ∧
      (∀ other, textSoFar (p.seen kind id) other = textSoFar p other) ∧
      known (p.seen kind id) id = true ∧
      ∀ other, known (p.seen kind id) other = (known p other || decide (other = id)) := by
  unfold TurnProjector.seen
  split
  · next isKnown =>
    refine ⟨sound, fun _ => rfl, isKnown, fun other => ?_⟩
    by_cases here : other = id
    · subst here
      rw [known, isKnown, Bool.true_or]
    · simp [here]
  · next unknown =>
    have absent : p.narration id = none := by simpa using unknown
    have texts : ∀ other, textSoFar { p with
        narration := Function.update p.narration id (some ⟨kind, [], none⟩) } other =
        textSoFar p other := by
      intro other
      by_cases here : other = id
      · subst here
        simp [textSoFar, absent]
      · simp [textSoFar, here]
    refine ⟨⟨sound.running, sound.shape, sound.stepOpen, fun other => ?_, sound.last, sound.filled,
      fun other step is => ?_, sound.idle, sound.streaming, sound.ended⟩, texts, ?_, fun other => ?_⟩
    · rw [texts]
      exact sound.text other
    · refine sound.placed other step ?_
      by_cases here : other = id
      · subst here
        simp [stepOf] at is
      · simpa [stepOf, here] using is
    · simp [known]
    · by_cases here : other = id
      · subst here
        simp [known]
      · simp [known, here]

end Calls

section Runs
variable {p : TurnProjector Result} {before journal : List (Entry Result)} {id : String}

/-- What was received for an Item; `early` if text came before the Item. -/
structure Receipt where
  text : Text
  known : Bool
  early : Bool
  finished : Bool
  deriving DecidableEq, Repr

/-- The text of a final Item that extends what was received. -/
def beyond (received final : Text) : Text :=
  if received <+: final then final.drop received.length else []

/-- What a call gives the Item. -/
def note (id : String) (receipt : Receipt) : Call → Receipt
  | .itemStarted (.narration _ itemId text) =>
    if itemId = id then
      { receipt with
        text := receipt.text ++ text
        known := true }
    else receipt
  | .itemUpdated itemId (.textAppend text) =>
    if itemId = id then
      { receipt with
        text := receipt.text ++ text
        early := receipt.early || (!receipt.known && text ≠ []) }
    else receipt
  | .itemCompleted (.narration _ itemId final) _ =>
    if itemId = id then
      { receipt with
        text := receipt.text ++ beyond receipt.text final
        known := true }
    else receipt
  | .finish .. => { receipt with finished := true }
  | _ => receipt

/-- A Turn that is finished receives nothing. -/
def receive (id : String) (receipt : Receipt) (call : Call) : Receipt :=
  if receipt.finished then receipt else note id receipt call

/-- What the calls of a Turn give an Item. -/
def received (calls : List Call) (id : String) : Receipt :=
  calls.foldl (receive id) ⟨[], false, false, false⟩

/-- The final answer that the first `finish` names. -/
def answerOf (calls : List Call) : Option (Option (Option String)) :=
  calls.findSome? fun
    | .finish _ finalAnswer => some finalAnswer
    | _ => none

/-- The receipt is what the projector knows of the Item. -/
structure Agrees (p : TurnProjector Result) (id : String) (receipt : Receipt) : Prop where
  finished : receipt.finished = p.finished
  known : receipt.known = known p id
  text : receipt.early = false → receipt.text = textSoFar p id

theorem remainder_eq (state final : Text) : remainder state final = beyond state final := by
  unfold remainder beyond
  simp only [Bool.and_eq_true, decide_eq_true_eq, isPrefixOf_iff_prefix]
  by_cases extends' : state <+: final
  · have short : state.length ≤ final.length := extends'.length_le
    by_cases longer : state.length < final.length
    · rw [if_pos ⟨longer, extends'⟩, if_pos extends']
    · have whole : final.drop state.length = [] := drop_eq_nil_iff.mpr (by omega)
      have same : state = final := extends'.eq_of_length (by omega)
      rw [if_neg (by simp [longer]), if_pos extends', whole, if_neg (by simp [same])]
  · have some : state ≠ [] := by
      rintro rfl
      exact extends' (List.nil_prefix)
    rw [if_neg (by simp [extends']), if_neg extends', if_neg (by simp [some])]

/-- Text is received for an Item that was perhaps not known. -/
theorem Narrated.receive (sound : Narrated before settled p journal) (kind : BlockKind)
    (itemId : String) (text : Text) :
    ∃ journal', Narrated before settled ((p.seen kind itemId).appendNarration itemId text) journal' ∧
      (∀ other, textSoFar ((p.seen kind itemId).appendNarration itemId text) other =
        textSoFar p other ++ owedTo itemId text other) ∧
      ∀ other, known ((p.seen kind itemId).appendNarration itemId text) other =
        (known p other || decide (other = itemId)) := by
  obtain ⟨ready, texts, isKnown, knowns⟩ := sound.seen kind itemId
  obtain ⟨journal', still, texts', knowns'⟩ := ready.appendNarration isKnown text
  refine ⟨journal', still, fun other => ?_, fun other => ?_⟩
  · rw [texts', texts]
  · rw [knowns', knowns]

theorem completeNarration_quiet (p : TurnProjector Result) (itemId : String) (final : Text) :
    Quiet (p.appendNarration itemId (remainder (textSoFar p itemId) final))
      (p.completeNarration itemId final) [] := by
  unfold completeNarration
  simp only
  rw [show ((p.narration itemId).map (·.text)).getD [] = textSoFar p itemId from rfl]
  split
  · exact endBlock_quiet _ _
  · exact .refl _

section
variable (sound : Narrated before settled p journal)
include sound

theorem Narrated.updateTool (itemId : String)
    (unknown : known p itemId = false) (update : HostItemUpdate) :
    ∃ journal', Narrated before settled (p.itemUpdated itemId update) journal' ∧
      (p.itemUpdated itemId update).narration = p.narration := by
  have set : ∀ tool, Quiet p (p.setTool itemId tool) [] := fun tool => .tools p _ _ _
  unfold TurnProjector.itemUpdated
  rw [if_neg (by simp [sound.running]), if_neg (by simpa [known] using unknown)]
  split
  · exact ⟨_, sound.quiet (.tools p _ _ _), rfl⟩
  · exact ⟨_, sound, rfl⟩
  · exact ⟨_, sound.quiet (set _), rfl⟩
  · exact ⟨_, sound.quiet (set _), rfl⟩
  · split
    · exact ⟨_, sound.quiet ((set _).trans (append_quiet _ rfl _ _)), rfl⟩
    · exact ⟨_, sound, rfl⟩
  · split
    · exact ⟨_, sound.quiet (set _), rfl⟩
    · exact ⟨_, sound, rfl⟩
  · exact ⟨_, sound, rfl⟩

theorem Narrated.completeTool (itemId : String)
    (item : ToolItem) (outcome : HostItemOutcome) :
    ∃ journal', Narrated before settled (p.itemCompleted (.tool itemId item) outcome) journal' ∧
      (p.itemCompleted (.tool itemId item) outcome).narration = p.narration := by
  unfold TurnProjector.itemCompleted
  rw [if_neg (by simp [sound.running])]
  obtain ⟨_, started, narration⟩ := sound.startTool itemId item
  obtain ⟨journal', done, narration'⟩ := started.settleTool itemId item outcome
  exact ⟨journal', done, narration'.trans narration⟩

theorem Narrated.settleTools (outcome : TurnOutcome) :
    ∃ journal', Narrated before settled (p.settleTools outcome) journal' ∧
      (p.settleTools outcome).narration = p.narration := by
  unfold TurnProjector.settleTools
  induction p.tools.values generalizing p journal with
  | nil => exact ⟨journal, sound, rfl⟩
  | cons tool rest ih =>
    obtain ⟨_, done, narration⟩ := sound.completeTool tool.callId tool.item (unsettledOutcome outcome)
    obtain ⟨journal', still, narration'⟩ := ih done
    exact ⟨journal', still, narration'.trans narration⟩

/-- The Turn has ended: its texts are in the journal. -/
structure Told (before : List (Entry Result)) (answer : Option (Option String))
    (p : TurnProjector Result) (journal : List (Entry Result)) : Prop where
  finished : p.finished = true
  shape : entries p = before ++ journal
  text : ∀ id, textOf (journal.flatMap blocksOf) id = textSoFar p id
  streamed : ∀ attempt ∈ p.log.ended, Streamed p.log attempt
  /-- The last Step of the answer has its text. -/
  answered : ∃ earlier reason final, journal = earlier ++ [(.turnEnd, .turnEnd p.turn reason final)] ∧
    ∀ step, final = some (some step) → ∃ id, answer = some (some id) ∧ PlacedIn journal p.turn id step

theorem Narrated.finish (outcome : TurnOutcome)
    (finalAnswer : Option (Option String)) :
    ∃ journal', Told before finalAnswer (p.finish outcome finalAnswer) journal' ∧
      (p.finish outcome finalAnswer).narration = p.narration := by
  obtain ⟨journal₁, done, same⟩ := sound.settleTools outcome
  obtain ⟨journal₂, shelved, same', -⟩ := done.closeStep
  have narration : (p.settleTools outcome).closeStep.narration = p.narration := same'.trans same
  unfold TurnProjector.finish
  rw [if_neg (by simp [sound.running])]
  simp only
  generalize (p.settleTools outcome).closeStep = q at shelved narration
  refine ⟨journal₂ ++ [(.turnEnd, .turnEnd q.turn (q.endReason outcome) (finalAnswer.map
    fun answer => answer.bind (stepOf q)))], ⟨rfl, (append_entries _ _ _ _ _).trans ?_,
    fun id => ?_, fun attempt member => ?_, journal₂, _, _, rfl, fun step is => ?_⟩, narration⟩
  · rw [← append_assoc, ← shelved.shape]
    rfl
  · rw [flatMap_append]
    have text : textOf (journal₂.flatMap blocksOf) id ++ [] = textSoFar q id := shelved.text id
    rw [append_nil] at text
    refine Eq.trans ?_ text
    simp [blocksOf]
  · exact (shelved.ended attempt member).mono fun event => mem_append_left _
  · obtain ⟨answer, named, is⟩ := map_eq_some_iff.mp is
    obtain ⟨id, rfl, is⟩ := bind_eq_some_iff.mp is
    exact ⟨id, named, (shelved.placed id step is).append _⟩

end

/-- A receipt of text. -/
theorem Agrees.grow {p' : TurnProjector Result} {receipt : Receipt} {itemId : String} {text : Text}
    (agrees : Agrees p id receipt) (finished : p'.finished = p.finished)
    (texts : ∀ other, textSoFar p' other = textSoFar p other ++ owedTo itemId text other)
    (knowns : ∀ other, Narration.known p' other = (Narration.known p other || decide (other = itemId)))
    (more : Text) (same : receipt.early = false → itemId = id → more = text) :
    Agrees p' id (if itemId = id then
      { receipt with
        text := receipt.text ++ more
        known := true }
      else receipt) := by
  by_cases here : itemId = id
  · rw [if_pos here]
    refine ⟨agrees.finished.trans finished.symm, ?_, fun early => ?_⟩
    · rw [knowns]
      simp [here]
    · rw [texts, ← agrees.text early, same early here]
      simp [owedTo, here]
  · rw [if_neg here]
    refine ⟨agrees.finished.trans finished.symm, ?_, fun early => ?_⟩
    · rw [knowns, agrees.known]
      simp [Ne.symm here]
    · rw [texts, agrees.text early]
      simp [owedTo, Ne.symm here]

theorem Agrees.kept {p' : TurnProjector Result} {receipt : Receipt} (agrees : Agrees p id receipt)
    (finished : p'.finished = p.finished) (narration : p'.narration = p.narration) :
    Agrees p' id receipt := by
  refine ⟨agrees.finished.trans finished.symm, ?_, fun early => ?_⟩
  · rw [Narration.known, narration]
    exact agrees.known
  · rw [textSoFar, narration]
    exact agrees.text early

theorem itemUpdated_known (running : p.finished = false) (isKnown : known p id = true)
    (update : HostItemUpdate) :
    p.itemUpdated id update = match update with
      | .textAppend text => p.appendNarration id text
      | _ => p := by
  have isKnown : (p.narration id).isSome = true := isKnown
  unfold TurnProjector.itemUpdated
  refine (if_neg (by simp [running])).trans ((if_pos isKnown).trans ?_)
  cases update <;> rfl

theorem Narrated.call (sound : Narrated before settled p journal) {call : Call}
    (open' : ∀ outcome finalAnswer, call ≠ .finish outcome finalAnswer) :
    ∃ journal', Narrated before settled (p.call call) journal' ∧ ∀ id receipt, Agrees p id receipt →
        Agrees (p.call call) id (Narration.receive id receipt call) := by
  have unfinished : ∀ {id receipt}, Agrees p id receipt → receipt.finished ≠ true := by
    intro id receipt agrees
    rw [agrees.finished, sound.running]
    exact Bool.false_ne_true
  have still : ∀ {p' journal'}, Narrated before settled p' journal' → p'.finished = p.finished :=
    fun sound' => sound'.running.trans sound.running.symm
  cases call with
  | itemStarted item =>
    simp only [TurnProjector.call, TurnProjector.itemStarted, sound.running, Bool.false_eq_true, if_false]
    cases item with
    | narration kind itemId text =>
      obtain ⟨journal', received, texts, knowns⟩ := sound.receive kind itemId text
      refine ⟨journal', received, fun id receipt agrees => ?_⟩
      rw [Narration.receive, if_neg (unfinished agrees)]
      exact agrees.grow (still received) texts knowns text fun _ _ => rfl
    | tool itemId item =>
      obtain ⟨journal', started, narration⟩ := sound.startTool itemId item
      refine ⟨journal', started, fun id receipt agrees => ?_⟩
      rw [Narration.receive, if_neg (unfinished agrees)]
      exact agrees.kept (still started) narration
  | itemUpdated itemId update =>
    by_cases isKnown : known p itemId = true
    · simp only [TurnProjector.call, itemUpdated_known sound.running isKnown]
      cases update with
      | textAppend text =>
        obtain ⟨journal', received, texts, knowns⟩ := sound.appendNarration isKnown text
        refine ⟨journal', received, fun id receipt agrees => ?_⟩
        rw [Narration.receive, if_neg (unfinished agrees)]
        simp only [note]
        have grown := agrees.grow (still received) texts (fun other => ?_) text fun _ _ => rfl
        · by_cases here : itemId = id
          · have mine : receipt.known = true := agrees.known.trans (here ▸ isKnown)
            rw [if_pos here] at grown ⊢
            simp only [mine, Bool.not_true, Bool.false_and, Bool.or_false]
            exact grown
          · rw [if_neg here] at grown ⊢
            exact grown
        · rw [knowns]
          by_cases here : other = itemId
          · rw [here, isKnown, Bool.true_or]
          · simp [here]
      | _ =>
        refine ⟨journal, sound, fun id receipt agrees => ?_⟩
        rw [Narration.receive, if_neg (unfinished agrees)]
        exact agrees
    · have unknown : known p itemId = false := by simpa using isKnown
      obtain ⟨journal', updated, narration⟩ := sound.updateTool itemId unknown update
      refine ⟨journal', updated, fun id receipt agrees => ?_⟩
      have kept := agrees.kept (still updated) narration
      rw [Narration.receive, if_neg (unfinished agrees)]
      cases update with
      | textAppend text =>
        simp only [note]
        by_cases here : itemId = id
        · rw [if_pos here]
          refine ⟨kept.finished, kept.known, fun early => ?_⟩
          have strange : receipt.known = false := agrees.known.trans (here ▸ unknown)
          simp only [strange, Bool.not_false, Bool.true_and, Bool.or_eq_false_iff,
            decide_eq_false_iff_not, not_not] at early
          have empty : receipt.text ++ text = receipt.text := by rw [early.2, append_nil]
          exact empty.trans (kept.text early.1)
        · rw [if_neg here]
          exact kept
      | _ => exact kept
  | itemCompleted item outcome =>
    cases item with
    | narration kind itemId final =>
      simp only [TurnProjector.call, TurnProjector.itemCompleted, sound.running, Bool.false_eq_true, if_false]
      obtain ⟨ready, textsSeen, -⟩ := sound.seen kind itemId
      obtain ⟨journal', received, texts, knowns⟩ :=
        sound.receive kind itemId (remainder (textSoFar (p.seen kind itemId) itemId) final)
      have quiet := completeNarration_quiet (p.seen kind itemId) itemId final
      refine ⟨_, received.quiet quiet, fun id receipt agrees => ?_⟩
      rw [Narration.receive, if_neg (unfinished agrees)]
      refine (agrees.grow (still received) texts knowns _ fun early here => ?_).kept quiet.finished
        quiet.narration
      rw [remainder_eq, textsSeen, here, ← agrees.text early]
    | tool itemId item =>
      obtain ⟨journal', done, narration⟩ := sound.completeTool itemId item outcome
      refine ⟨journal', done, fun id receipt agrees => ?_⟩
      rw [Narration.receive, if_neg (unfinished agrees)]
      exact agrees.kept (still done) narration
  | steer content requestId =>
    obtain ⟨journal', steered, narration⟩ := sound.steer content requestId
    refine ⟨journal', steered, fun id receipt agrees => ?_⟩
    rw [Narration.receive, if_neg (unfinished agrees)]
    exact agrees.kept (still steered) narration
  | finish outcome finalAnswer => exact absurd rfl (open' outcome finalAnswer)

theorem start_narrated (events : List (WireEvent (EventData Result)))
    (sequenceStart attemptCounter turn : Nat) (live : Bool) (view : ToolView Result)
    (beginning : Beginning) :
    ∃ journal, Narrated (entries (new events sequenceStart attemptCounter turn live view)) settled
        ((new events sequenceStart attemptCounter turn live view).start beginning) journal ∧
      ((new events sequenceStart attemptCounter turn live view).start beginning).narration =
        fun _ => none := by
  generalize is : new events sequenceStart attemptCounter turn live view = p
  have nothing : p.narration = fun _ => none := by rw [← is]; rfl
  have shelved : Shelved (entries p) settled (p.append .turnStart (.turn p.turn) false none)
      [(.turnStart, .turn p.turn)] := by
    subst is
    exact ⟨rfl, append_entries _ _ _ _ _, fun _ => rfl, nofun, rfl, nofun⟩
  have started : Narrated (entries p) settled p.startTurn _ := shelved.openStep
  have begun : ∀ content requestId, ∃ journal,
      Narrated (entries p) settled (p.begin content requestId) journal :=
    fun content requestId => started.userMessage content requestId
  cases beginning with
  | user content requestId =>
    obtain ⟨journal, begun⟩ := begun content requestId
    exact ⟨journal, begun, nothing⟩
  | autonomous content =>
    unfold TurnProjector.start beginAutonomous
    simp only
    split
    · obtain ⟨journal, begun⟩ := begun content none
      exact ⟨journal, begun, nothing⟩
    · exact ⟨_, started, nothing⟩

theorem run_narrated {start : TurnProjector Result} (sound : Narrated before settled start journal)
    (empty : start.narration = fun _ => none) (calls : List Call) :
    ((answerOf calls = none ∧ ∃ journal', Narrated before settled (calls.foldl TurnProjector.call start)
        journal') ∨
      ∃ answer journal', answerOf calls = some answer ∧
        Told before answer (calls.foldl TurnProjector.call start) journal') ∧
    ∀ id, Agrees (calls.foldl TurnProjector.call start) id (received calls id) := by
  induction calls using List.reverseRecOn with
  | nil =>
    refine ⟨.inl ⟨rfl, journal, sound⟩, fun id => ⟨sound.running.symm, ?_, fun _ => ?_⟩⟩
    · simp [received, known, empty]
    · simp [received, textSoFar, empty]
  | append_singleton calls call ih =>
    obtain ⟨running, agrees⟩ := ih
    simp only [foldl_append, foldl_cons, foldl_nil, answerOf, findSome?_append, received] at running agrees ⊢
    rcases running with ⟨unanswered, journal', still⟩ | ⟨answer, journal', answered, told⟩
    · by_cases ends : ∃ outcome finalAnswer, call = .finish outcome finalAnswer
      · obtain ⟨outcome, finalAnswer, rfl⟩ := ends
        obtain ⟨journal'', told, narration⟩ := still.finish outcome finalAnswer
        refine ⟨.inr ⟨finalAnswer, journal'', by rw [unanswered]; rfl, told⟩, fun id => ?_⟩
        have open' : (calls.foldl (receive id) ⟨[], false, false, false⟩).finished ≠ true := by
          rw [(agrees id).finished, still.running]
          exact Bool.false_ne_true
        rw [receive, if_neg open']
        refine ⟨told.finished.symm, ?_, fun early => ?_⟩
        · rw [known, TurnProjector.call, narration]
          exact (agrees id).known
        · rw [textSoFar, TurnProjector.call, narration]
          exact (agrees id).text early
      · have open' : ∀ outcome finalAnswer, call ≠ .finish outcome finalAnswer :=
          fun outcome finalAnswer is => ends ⟨outcome, finalAnswer, is⟩
        obtain ⟨journal'', next, grown⟩ := still.call open'
        refine ⟨.inl ⟨?_, journal'', next⟩, fun id => grown id _ (agrees id)⟩
        rw [unanswered]
        cases call with
        | finish outcome finalAnswer => exact absurd rfl (open' outcome finalAnswer)
        | _ => rfl
    · have past : ∀ id, (calls.foldl (receive id) ⟨[], false, false, false⟩).finished = true :=
        fun id => (agrees id).finished.trans told.finished
      rw [call_finished told.finished, answered]
      refine ⟨.inr ⟨answer, journal', rfl, told⟩, fun id => ?_⟩
      rw [receive, if_pos (past id)]
      exact agrees id

/-- Text that comes for an Item before it was started or completed as narration is dropped. The
text of every other Item stands in the messages as it was received; the committed attempts have
streamed their messages, and the final answer names a Step with text of its Item. -/
theorem narration_conserved (events : List (WireEvent (EventData Result)))
    (sequenceStart attemptCounter turn : Nat) (live : Bool) (view : ToolView Result)
    (beginning : Beginning) (calls : List Call) (answer : Option (Option String))
    (finished : answerOf calls = some answer) :
    let p := calls.foldl TurnProjector.call
      ((new events sequenceStart attemptCounter turn live view).start beginning)
    ∃ journal, entries p = (events.map fun event => (event.type, event.data)) ++ journal ∧
      (∀ id, (received calls id).early = false →
        textOf (journal.flatMap blocksOf) id = (received calls id).text) ∧
      (∀ attempt ∈ p.log.ended, Streamed p.log attempt) ∧
      ∃ earlier reason final, journal = earlier ++ [(.turnEnd, .turnEnd p.turn reason final)] ∧
        ∀ step, final = some (some step) →
          ∃ id, answer = some (some id) ∧ PlacedIn journal p.turn id step := by
  intro p
  obtain ⟨journal, started, empty⟩ :=
    start_narrated events sequenceStart attemptCounter turn live view beginning
  obtain ⟨running, agrees⟩ := run_narrated started empty calls
  rcases running with ⟨unfinished, -⟩ | ⟨answer', journal', answered, told⟩
  · rw [unfinished] at finished
    cases finished
  · rw [answered] at finished
    cases finished
    refine ⟨journal', told.shape, fun id inOrder => ?_, told.streamed, told.answered⟩
    rw [told.text]
    exact ((agrees id).text inOrder).symm

end Runs

/-- Narration that goes on in the next Step, and is completed with more text. -/
def interrupted : List Call :=
  [.itemStarted (.narration .text "m1" [76]), .itemStarted (.tool "c1" .contextCompaction),
    .itemCompleted (.tool "c1" .contextCompaction) .succeeded,
    .itemUpdated "m1" (.textAppend [79]),
    .itemCompleted (.narration .text "m1" [76, 79, 33]) .succeeded,
    .finish .succeeded (some (some "m1"))]

/-- The texts of the messages, by Step. -/
def messages (p : TurnProjector Result) : List (Nat × List Text) :=
  (entries p).filterMap fun entry => match entry.2 with
    | .assistant _ step blocks _ => some (step, blocks.map (·.text))
    | _ => none

theorem narration_conserved_sample :
    textOf ((entries (interrupted.foldl TurnProjector.call sampleStart)).flatMap blocksOf) "m1" =
      [76, 79, 33] ∧
    messages (interrupted.foldl TurnProjector.call sampleStart) = [(1, [[76]]), (2, [[79, 33]])] := by
  have answered : answerOf interrupted = some (some (some "m1")) := by decide
  obtain ⟨journal, shape, text, -⟩ :=
    narration_conserved [] 0 0 1 true plainView (.user [] none) interrupted _ answered
  refine ⟨?_, by decide⟩
  rw [show entries (interrupted.foldl TurnProjector.call sampleStart) = journal from shape,
    text "m1" (by decide)]
  decide

/-- The text comes before its Item. -/
def tooEarly : List Call :=
  [.itemUpdated "m1" (.textAppend [97, 98]), .itemStarted (.narration .text "m1" []),
    .itemUpdated "m1" (.textAppend [99]), .finish .succeeded none]

theorem early_text_dropped : answerOf tooEarly = some none ∧ (received tooEarly "m1").text = [97, 98, 99] ∧
    textOf ((entries (tooEarly.foldl TurnProjector.call sampleStart)).flatMap blocksOf) "m1" = [99] := by
  decide

end CodexHost.Guarantees.Narration
