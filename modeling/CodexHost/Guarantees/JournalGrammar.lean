import CodexHost.Foundation.Transition
import CodexHost.Source.SessionRuntime.Projector

/-!
# The grammar of a Turn's journal

A journal of a Turn is its start, Steps that are numbered from 1, and its end. The invariant
carries the bodies of the closed Steps, and the body of the open one with the tools that still
wait for their result. Text and input of the user close a Step, so the tools of the Step must be
settled before them.
-/
namespace CodexHost.Guarantees.JournalGrammar
open Foundation Source.SessionRuntime OrderedMap List Option Bool
open Source.SessionRuntime.TurnProjector

variable {Result : Type}

/-- An event without its number, source and time. -/
abbrev Entry (Result : Type) := EventType × EventData Result

def entries (p : TurnProjector Result) : List (Entry Result) :=
  p.log.events.map fun event => (event.type, event.data)

def isMessage : Entry Result → Bool
  | (.assistantMessage, .assistant ..) => true
  | _ => false

/-- The tool that an entry calls. -/
def callOf : Entry Result → Option String
  | (.toolCall, .call _ _ id _) => some id
  | _ => none

/-- The tool whose result an entry is. -/
def resultOf : Entry Result → Option String
  | (.toolResult, .result _ _ id _ _) => some id
  | _ => none

/-- The entry may stand in this Step, and carries its number. -/
def InStep (turn step : Nat) : Entry Result → Prop
  | (.userMessage, .user ..) => True
  | (.assistantMessage, .assistant t k _ _) => t = turn ∧ k = step
  | (.toolCall, .call t k _ _) => t = turn ∧ k = step
  | (.toolResult, .result t k _ _ _) => t = turn ∧ k = step
  | _ => False

def Called (body : List (Entry Result)) (id : String) : Prop := ∃ entry ∈ body, callOf entry = some id

def results (body : List (Entry Result)) (id : String) : Nat :=
  body.countP (resultOf · = some id)

/-- The body of a Step: at most one message, and before its tool calls. -/
structure Body (turn step : Nat) (body : List (Entry Result)) : Prop where
  within : ∀ entry ∈ body, InStep turn step entry
  message : body.countP isMessage ≤ 1
  order : body.Pairwise fun entry later => isMessage later = true → callOf entry = none
  known : ∀ id, 0 < results body id → Called body id

/-- A Step on the wire. -/
def wire (turn : Nat) (step : List (Entry Result) × Nat) : List (Entry Result) :=
  (.stepStart, .step turn step.2) :: step.1 ++ [(.stepEnd, .step turn step.2)]

/-- The journal of a Turn that has ended. -/
structure Grammar (turn : Nat) (journal : List (Entry Result)) : Prop where
  shape : ∃ (bodies : List (List (Entry Result))) (reason : EndReason) (final : Option (Option Nat)),
    journal = (.turnStart, .turn turn) :: (bodies.zipIdx 1).flatMap (wire turn) ++
      [(.turnEnd, .turnEnd turn reason final)] ∧
    ∀ step ∈ bodies.zipIdx 1, Body turn step.2 step.1 ∧
      ∀ id, Called step.1 id → results step.1 id = 1 ∧ results journal id = 1

section Frames
variable (p : TurnProjector Result)

/-- The journal and what its grammar depends on are the same. -/
structure SameJournal (p p' : TurnProjector Result) : Prop where
  step : p'.step = p.step
  stepOpen : p'.stepOpen = p.stepOpen
  stepHasTools : p'.stepHasTools = p.stepHasTools
  messageCommitted : p'.messageCommitted = p.messageCommitted
  tools : p'.tools = p.tools
  finished : p'.finished = p.finished
  turn : p'.turn = p.turn
  events : p'.log.events = p.log.events

variable {p} {p' p'' : TurnProjector Result}

theorem SameJournal.refl (p : TurnProjector Result) : SameJournal p p :=
  ⟨rfl, rfl, rfl, rfl, rfl, rfl, rfl, rfl⟩

theorem SameJournal.trans (first : SameJournal p p') (second : SameJournal p' p'') : SameJournal p p'' :=
  ⟨second.step.trans first.step, second.stepOpen.trans first.stepOpen,
    second.stepHasTools.trans first.stepHasTools,
    second.messageCommitted.trans first.messageCommitted, second.tools.trans first.tools,
    second.finished.trans first.finished, second.turn.trans first.turn,
    second.events.trans first.events⟩

theorem SameJournal.entries (same : SameJournal p p') : entries p' = entries p := by
  simp only [JournalGrammar.entries, same.events]

theorem chunk_same (p : TurnProjector Result) (chunk : Chunk) : SameJournal p (p.chunk chunk) := by
  unfold TurnProjector.chunk
  split <;> exact ⟨rfl, rfl, rfl, rfl, rfl, rfl, rfl, rfl⟩

theorem endBlock_same (p : TurnProjector Result) (index : Nat) : SameJournal p (p.endBlock index) := by
  unfold endBlock
  split
  · exact .refl p
  · split
    · exact .refl p
    · have ended : SameJournal p (p.setEnded index) := ⟨rfl, rfl, rfl, rfl, rfl, rfl, rfl, rfl⟩
      exact ended.trans (chunk_same _ _)

theorem endBlocks_same (p : TurnProjector Result) : SameJournal p p.endBlocks := by
  unfold endBlocks
  induction List.range p.blocks.length generalizing p with
  | nil => exact .refl p
  | cons index rest ih => exact (endBlock_same p index).trans (ih _)

theorem ensureAttempt_same (p : TurnProjector Result) : SameJournal p p.ensureAttempt := by
  unfold ensureAttempt
  split <;> exact ⟨rfl, rfl, rfl, rfl, rfl, rfl, rfl, rfl⟩

theorem newBlock_same (p : TurnProjector Result) (itemId : String) (kind : BlockKind) :
    SameJournal p (p.newBlock itemId kind) := by
  have added : SameJournal p (p.addBlock itemId kind) :=
    ⟨rfl, rfl, rfl, rfl, rfl, rfl, rfl, rfl⟩
  exact (added.trans (ensureAttempt_same _)).trans (chunk_same _ _)

theorem appendText_same (p : TurnProjector Result) (index : Nat) (text : Text) :
    SameJournal p (p.appendText index text) := by
  unfold appendText
  split
  · exact .refl p
  · have added : SameJournal p (p.addText index text) := ⟨rfl, rfl, rfl, rfl, rfl, rfl, rfl, rfl⟩
    exact added.trans (chunk_same _ _)

theorem seen_same (p : TurnProjector Result) (kind : BlockKind) (itemId : String) :
    SameJournal p (p.seen kind itemId) := by
  unfold seen
  split <;> exact ⟨rfl, rfl, rfl, rfl, rfl, rfl, rfl, rfl⟩

theorem append_entries (p : TurnProjector Result) (type : EventType) (data : EventData Result)
    (surface : Bool) (sources : Option (List Nat)) :
    entries (p.append type data surface sources) = entries p ++ [(type, data)] := by
  simp [entries, TurnProjector.append, SessionLog.append]

theorem endAttempt_events (log : SessionLog (EventData Result)) (committed : Option Nat) :
    (log.endAttempt committed).events = log.events := by
  unfold SessionLog.endAttempt
  split <;> rfl

/-- A message is appended, and the attempt ends. -/
theorem commitMessage_spec (p : TurnProjector Result) (calls : List (String × ToolCall)) :
    (∃ blocks, entries (p.commitMessage calls) =
      entries p ++ [(.assistantMessage, .assistant p.turn p.step blocks calls)]) ∧
    (p.commitMessage calls).step = p.step ∧ (p.commitMessage calls).stepOpen = p.stepOpen ∧
    (p.commitMessage calls).stepHasTools = p.stepHasTools ∧
    (p.commitMessage calls).messageCommitted = true ∧
    (p.commitMessage calls).tools = p.tools ∧ (p.commitMessage calls).finished = p.finished ∧
    (p.commitMessage calls).turn = p.turn := by
  have same := (endBlocks_same p).trans (chunk_same p.endBlocks (.finish (!calls.isEmpty)))
  refine ⟨⟨(p.endBlocks.chunk (.finish (!calls.isEmpty))).content, ?_⟩, same.step, same.stepOpen,
    same.stepHasTools, rfl, same.tools, same.finished, same.turn⟩
  rw [← same.entries, ← same.turn, ← same.step, ← append_entries]
  simp only [commitMessage, entries, endAttempt_events]
  rfl

theorem closeStep_spec (p : TurnProjector Result) (isOpen : p.stepOpen = true) :
    (∃ more, entries p.closeStep = entries p ++ more ++ [(.stepEnd, .step p.turn p.step)] ∧
      (more = [] ∨ p.messageCommitted = false ∧
        ∃ blocks, more = [(.assistantMessage, .assistant p.turn p.step blocks [])])) ∧
    p.closeStep.step = p.step ∧ p.closeStep.stepOpen = false ∧ p.closeStep.tools = p.tools ∧
    p.closeStep.finished = p.finished ∧ p.closeStep.turn = p.turn := by
  unfold closeStep
  simp only [isOpen, Bool.not_true, Bool.false_eq_true, if_false]
  split
  · next uncommitted =>
    obtain ⟨⟨blocks, message⟩, step, -, -, -, tools, finished, turn⟩ := commitMessage_spec p []
    refine ⟨⟨[(.assistantMessage, .assistant p.turn p.step blocks [])], ?_,
      .inr ⟨?_, blocks, rfl⟩⟩, step, trivial, tools, finished, turn⟩
    · rw [← message, ← step, ← turn, ← append_entries _ _ _ false none]
      rfl
    · simp only [Bool.and_eq_true, Bool.not_eq_true'] at uncommitted
      exact uncommitted.1
  · refine ⟨⟨[], ?_, .inl rfl⟩, rfl, trivial, rfl, rfl, rfl⟩
    simp [entries, TurnProjector.append, SessionLog.append, endAttempt_events]

theorem openStep_spec (p : TurnProjector Result) :
    entries p.openStep = entries p ++ [(.stepStart, .step p.turn (p.step + 1))] ∧
    p.openStep.step = p.step + 1 ∧ p.openStep.stepOpen = true ∧
    p.openStep.messageCommitted = false ∧ p.openStep.tools = p.tools ∧
    p.openStep.finished = p.finished ∧ p.openStep.turn = p.turn :=
  ⟨append_entries _ _ _ _ _, rfl, rfl, rfl, rfl, rfl, rfl⟩

end Frames

section Steps
variable {p p' : TurnProjector Result} {before : List (Entry Result)} {turn : Nat}
  {closed : List (List (Entry Result))} {body : List (Entry Result)}

/-- The Turn is open: the bodies of its closed Steps, and that of the open one. -/
structure Open (before : List (Entry Result)) (turn : Nat) (p : TurnProjector Result)
    (closed : List (List (Entry Result))) (body : List (Entry Result)) : Prop where
  turnIs : p.turn = turn
  running : p.finished = false
  stepOpen : p.stepOpen = true
  step : p.step = closed.length + 1
  shape : entries p = before ++ ((.turnStart, .turn p.turn) ::
    (closed.zipIdx 1).flatMap (wire p.turn) ++ (.stepStart, .step p.turn p.step) :: body)
  past : ∀ step ∈ closed.zipIdx 1, Body p.turn step.2 step.1 ∧ ∀ id, Called step.1 id → results step.1 id = 1
  current : Body p.turn p.step body
  uncommitted : p.messageCommitted = false → ∀ entry ∈ body, isMessage entry = false ∧ callOf entry = none
  openTools : ∀ id tool, p.tools.get? id = some tool →
    tool.callId = id ∧ Called body id ∧ results body id = 0
  settled : ∀ id, Called body id → p.tools.get? id = none → results body id = 1
  apart : (closed ++ [body]).Pairwise fun earlier later => ∀ id, Called earlier id → ¬ Called later id

def Opened (before : List (Entry Result)) (turn : Nat) (p : TurnProjector Result) : Prop :=
  ∃ closed body, Open before turn p closed body

theorem Open.frame (sound : Open before turn p closed body) (same : SameJournal p p') :
    Open before turn p' closed body := by
  obtain ⟨turnIs, running, stepOpen, step, shape, past, current, uncommitted, openTools, settled,
    apart⟩ := sound
  refine ⟨same.turn.trans turnIs, same.finished.trans running, same.stepOpen.trans stepOpen,
    same.step.trans step, ?_, ?_, ?_, ?_, ?_, ?_, apart⟩
  · rw [same.entries, same.turn, same.step]
    exact shape
  · rw [same.turn]
    exact past
  · rw [same.turn, same.step]
    exact current
  · rw [same.messageCommitted]
    exact uncommitted
  · rw [same.tools]
    exact openTools
  · rw [same.tools]
    exact settled

section Bodies
variable {turn step : Nat} {entry : Entry Result} {id : String}

theorem called_append {more : List (Entry Result)} :
    Called (body ++ more) id ↔ Called body id ∨ Called more id := by
  simp only [Called, mem_append, or_and_right, exists_or]

theorem results_append (more : List (Entry Result)) :
    results (body ++ more) id = results body id + results more id :=
  countP_append

/-- An entry goes to the end of a body. -/
theorem Body.snoc (sound : Body turn step body) (within : InStep turn step entry)
    (message : isMessage entry = true → ∀ earlier ∈ body, isMessage earlier = false ∧ callOf earlier = none)
    (known : ∀ id, resultOf entry = some id → Called body id) :
    Body turn step (body ++ [entry]) := by
  obtain ⟨within', message', order, known'⟩ := sound
  refine ⟨?_, ?_, ?_, fun id positive => called_append.mpr ?_⟩
  · intro other member
    rcases mem_append.mp member with old | new
    · exact within' other old
    · rw [mem_singleton.mp new]
      exact within
  · rw [countP_append, countP_singleton]
    split
    · next isMessage =>
      rw [countP_eq_zero.mpr fun other member => by simp [(message isMessage other member).1]]
    · exact message'
  · refine pairwise_append.mpr ⟨order, pairwise_singleton _ _, ?_⟩
    intro earlier member later new isMessage
    rw [mem_singleton.mp new] at isMessage
    exact (message isMessage earlier member).2
  · rw [results_append] at positive
    by_cases old : 0 < results body id
    · exact .inl (known' id old)
    · have new : 0 < results [entry] id := by omega
      simp only [results, countP_singleton, decide_eq_true_eq] at new
      split at new
      · next is => exact .inl (known id is)
      · cases new

end Bodies

/-- An entry goes to the open Step. -/
theorem Open.push {entry : Entry Result} (sound : Open before turn p closed body)
    (journal : entries p' = entries p ++ [entry]) (finished : p'.finished = p.finished)
    (stepOpen : p'.stepOpen = p.stepOpen) (step : p'.step = p.step) (turn' : p'.turn = p.turn)
    (current : Body p.turn p.step (body ++ [entry]))
    (uncommitted : p'.messageCommitted = false →
      p.messageCommitted = false ∧ isMessage entry = false ∧ callOf entry = none)
    (openTools : ∀ id tool, p'.tools.get? id = some tool → tool.callId = id ∧
      Called (body ++ [entry]) id ∧ results (body ++ [entry]) id = 0)
    (settled : ∀ id, Called (body ++ [entry]) id → p'.tools.get? id = none → results (body ++ [entry]) id = 1)
    (fresh : ∀ id, callOf entry = some id → Called body id ∨ ∀ earlier ∈ closed, ¬ Called earlier id) :
    Open before turn p' closed (body ++ [entry]) := by
  refine ⟨turn'.trans sound.turnIs, finished.trans sound.running, stepOpen.trans sound.stepOpen,
    step.trans sound.step, ?_, ?_, ?_, ?_, openTools, settled, ?_⟩
  · rw [journal, sound.shape, turn', step]
    simp
  · rw [turn']
    exact sound.past
  · rw [turn', step]
    exact current
  · intro open' other member
    obtain ⟨before', quiet⟩ := uncommitted open'
    rcases mem_append.mp member with old | new
    · exact sound.uncommitted before' other old
    · rw [mem_singleton.mp new]
      exact quiet
  · have parts := pairwise_append.mp sound.apart
    refine pairwise_append.mpr ⟨parts.1, pairwise_singleton _ _, ?_⟩
    intro earlier member later new id call
    have apart := parts.2.2 earlier member body (mem_singleton_self _) id call
    rw [mem_singleton.mp new, called_append]
    rintro (old | ⟨other, is, call'⟩)
    · exact apart old
    · rw [mem_singleton.mp is] at call'
      rcases fresh id call' with old | never
      · exact apart old
      · exact never earlier member call

theorem called_snoc {entry : Entry Result} {id : String} :
    Called (body ++ [entry]) id ↔ Called body id ∨ callOf entry = some id := by
  simp [Called]

theorem results_snoc (entry : Entry Result) (id : String) :
    results (body ++ [entry]) id = results body id + if resultOf entry = some id then 1 else 0 := by
  simp [results, countP_singleton]

section
variable (sound : Open before turn p closed body)
include sound

theorem Open.pushQuiet {entry : Entry Result}
    (journal : entries p' = entries p ++ [entry]) (finished : p'.finished = p.finished)
    (stepOpen : p'.stepOpen = p.stepOpen) (step : p'.step = p.step) (turn' : p'.turn = p.turn)
    (tools : p'.tools = p.tools) (current : Body p.turn p.step (body ++ [entry]))
    (uncommitted : p'.messageCommitted = false → p.messageCommitted = false ∧ isMessage entry = false)
    (call : callOf entry = none) (result : resultOf entry = none) :
    Open before turn p' closed (body ++ [entry]) := by
  refine sound.push journal finished stepOpen step turn' current
    (fun open' => ⟨(uncommitted open').1, (uncommitted open').2, call⟩) ?_ ?_ ?_
  · intro id tool is
    rw [tools] at is
    rw [called_snoc, results_snoc, result]
    obtain ⟨callId, called, unanswered⟩ := sound.openTools id tool is
    exact ⟨callId, .inl called, unanswered⟩
  · intro id is free
    rw [tools] at free
    rw [called_snoc, call] at is
    rw [results_snoc, result]
    exact sound.settled id (is.resolve_right nofun) free
  · rw [call]
    nofun

theorem Open.userMessage (content : List InputPart)
    (rpcId : Option String) : Opened before turn (p.userMessage content rpcId) :=
  ⟨closed, _, sound.pushQuiet (append_entries _ _ _ _ _) rfl rfl rfl rfl rfl
    (sound.current.snoc trivial nofun nofun) (fun open' => ⟨open', rfl⟩) rfl rfl⟩

/-- The Steps of a Turn are closed. -/
structure Closed (before : List (Entry Result)) (turn : Nat) (journal : List (Entry Result))
    (bodies : List (List (Entry Result))) : Prop where
  shape : journal = before ++ ((.turnStart, .turn turn) :: (bodies.zipIdx 1).flatMap (wire turn))
  past : ∀ step ∈ bodies.zipIdx 1, Body turn step.2 step.1 ∧ ∀ id, Called step.1 id → results step.1 id = 1
  apart : bodies.Pairwise fun earlier later => ∀ id, Called earlier id → ¬ Called later id

/-- The open Step closes when its tools are settled. -/
theorem Open.closeStep (free : ∀ id, p.tools.get? id = none) :
    ∃ body', Closed before p.turn (entries p.closeStep) (closed ++ [body']) := by
  obtain ⟨⟨more, journal, cases⟩, -⟩ := closeStep_spec p sound.stepOpen
  have quiet : (∀ id, ¬ Called more id) ∧ (∀ id, results more id = 0) ∧
      Body p.turn p.step (body ++ more) := by
    rcases cases with rfl | ⟨uncommitted, blocks, rfl⟩
    · exact ⟨nofun, fun _ => rfl, by rw [append_nil]; exact sound.current⟩
    · refine ⟨fun id called => ?_, fun id => rfl,
        sound.current.snoc ⟨rfl, rfl⟩ (fun _ => sound.uncommitted uncommitted) nofun⟩
      obtain ⟨entry, member, call⟩ := called
      rw [mem_singleton.mp member] at call
      cases call
  obtain ⟨silent, unanswered, whole⟩ := quiet
  have called : ∀ id, Called (body ++ more) id ↔ Called body id :=
    fun id => called_append.trans (or_iff_left (silent id))
  refine ⟨body ++ more, ?_, ?_, ?_⟩
  · rw [journal, sound.shape, zipIdx_append, flatMap_append]
    simp only [zipIdx_cons, zipIdx_nil, flatMap_cons, flatMap_nil, wire,
      sound.step, Nat.add_comm 1 closed.length]
    simp
  · intro step member
    rw [zipIdx_append] at member
    rcases mem_append.mp member with old | new
    · exact sound.past step old
    · simp only [zipIdx_cons, zipIdx_nil, mem_singleton] at new
      rw [new, Nat.add_comm 1, ← sound.step]
      refine ⟨whole, fun id call => ?_⟩
      have call := (called id).mp call
      rw [results_append, unanswered, sound.settled id call (free id)]
  · have apart := pairwise_append.mp sound.apart
    refine pairwise_append.mpr ⟨apart.1, pairwise_singleton _ _, ?_⟩
    intro earlier member later new id call
    rw [mem_singleton.mp new, called]
    exact apart.2.2 earlier member body (mem_singleton_self _) id call

end

/-- A new Step opens after the closed ones. -/
theorem Closed.openStep {bodies : List (List (Entry Result))}
    (sound : Closed before p.turn (entries p) bodies) (turnIs : p.turn = turn)
    (running : p.finished = false) (step : p.step = bodies.length)
    (free : ∀ id, p.tools.get? id = none) :
    Open before turn p.openStep bodies [] := by
  obtain ⟨journal, step', stepOpen, uncommitted, tools, finished, turn'⟩ := openStep_spec p
  refine ⟨turn'.trans turnIs, finished.trans running, stepOpen, by rw [step', step], ?_, ?_, ?_,
    fun _ => nofun, fun id tool is => ?_, nofun, ?_⟩
  · rw [journal, turn', step', sound.shape]
    simp
  · exact sound.past
  · exact ⟨nofun, Nat.zero_le _, List.Pairwise.nil, nofun⟩
  · rw [tools, free] at is
    cases is
  · exact pairwise_append.mpr ⟨sound.apart, pairwise_singleton _ _,
      fun earlier _ later new id _ => by rw [mem_singleton.mp new]; nofun⟩

variable (sound : Open before turn p closed body)
include sound

/-- The next Step opens when the tools of the open one are settled. -/
theorem Open.newStep (free : ∀ id, p.tools.get? id = none) :
    Opened before turn p.closeStep.openStep := by
  obtain ⟨body', closes⟩ := sound.closeStep free
  obtain ⟨-, step, -, tools, finished, turn'⟩ := closeStep_spec p sound.stepOpen
  rw [← turn'] at closes
  refine ⟨_, _, closes.openStep (turn'.trans sound.turnIs) (finished.trans sound.running) ?_ (by rwa [tools])⟩
  rw [step, sound.step, length_append, length_singleton]

/-- The text of an Item is narrated: the tools are settled, or there is none. -/
theorem Open.appendNarration (itemId : String) (text : Text)
    (free : text = [] ∨ ∀ id, p.tools.get? id = none) :
    Opened before turn (p.appendNarration itemId text) := by
  unfold TurnProjector.appendNarration
  split
  · exact ⟨closed, body, sound⟩
  · next some =>
    have free := free.resolve_left some
    have noted : SameJournal p (p.noteText itemId text) := ⟨rfl, rfl, rfl, rfl, rfl, rfl, rfl, rfl⟩
    suffices Opened before turn ((p.noteText itemId text).writableBlock itemId).1 by
      obtain ⟨closed, body, sound⟩ := this
      exact ⟨closed, body, sound.frame (appendText_same _ _ _)⟩
    have sound := sound.frame noted
    unfold writableBlock
    split
    · exact ⟨closed, body, sound⟩
    · have stepped : Opened before turn ((p.noteText itemId text).stepFor itemId) := by
        unfold stepFor
        split
        · exact sound.newStep free
        · exact ⟨closed, body, sound⟩
      obtain ⟨closed, body, sound⟩ := stepped
      have stepNoted : SameJournal ((p.noteText itemId text).stepFor itemId)
          (((p.noteText itemId text).stepFor itemId).noteStep itemId) :=
        ⟨rfl, rfl, rfl, rfl, rfl, rfl, rfl, rfl⟩
      exact ⟨closed, body, sound.frame (stepNoted.trans (newBlock_same _ _ _))⟩

/-- The user steers: a new Step with the input. -/
theorem Open.steer (free : ∀ id, p.tools.get? id = none)
    (content : List InputPart) (requestId : Option String) :
    Opened before turn (p.steer content requestId) := by
  unfold TurnProjector.steer
  rw [if_neg (by simp [sound.running])]
  obtain ⟨closed, body, sound⟩ := sound.newStep free
  exact sound.userMessage content requestId

/-- The journal of the Turn has a result of the tool. -/
def hasResult (p : TurnProjector Result) (id : String) : Bool :=
  (entries p).any fun
    | (.toolResult, .result turn _ callId _ _) => turn = p.turn && callId = id
    | _ => false

theorem no_result {id : String}
    (unsettled : hasResult p id = false) :
    results body id = 0 ∧ ∀ earlier ∈ closed, ¬ Called earlier id := by
  have never : ∀ step entries', Body p.turn step entries' →
      (∀ entry ∈ entries', entry ∈ entries p) → results entries' id = 0 := by
    intro step entries' whole inside
    refine countP_eq_zero.mpr fun entry member => ?_
    intro result
    have within := whole.within entry member
    have absent := any_eq_false.mp unsettled entry (inside entry member)
    obtain ⟨type, data⟩ := entry
    cases type <;> cases data <;> simp only [resultOf, some_inj] at result
    all_goals first | cases result; done | skip
    simp [within.1, result] at absent
  refine ⟨never p.step body sound.current fun entry member => ?_, fun earlier member call => ?_⟩
  · rw [sound.shape]
    simp [member]
  · obtain ⟨index, below, is⟩ := getElem_of_mem member
    have listed : (earlier, 1 + index) ∈ closed.zipIdx 1 := by
      rw [mem_zipIdx_iff_le_and_getElem?_sub]
      simp [getElem?_eq_getElem below, is]
    obtain ⟨whole, answered⟩ := sound.past _ listed
    have one := answered id call
    rw [never _ earlier whole] at one
    · cases one
    · intro entry inside
      rw [sound.shape]
      simp only [mem_append, mem_cons, mem_flatMap]
      exact .inr (.inl (.inr ⟨_, listed, by simp [wire, inside]⟩))

/-- The message that the first call of a Step commits. -/
theorem Open.commit (uncommitted : p.messageCommitted = false)
    (calls : List (String × ToolCall)) :
    ∃ entry, Open before turn (p.commitMessage calls) closed (body ++ [entry]) ∧
      callOf entry = none ∧ resultOf entry = none := by
  obtain ⟨⟨blocks, journal⟩, step, stepOpen, -, committed, tools, finished, turn⟩ :=
    commitMessage_spec p calls
  refine ⟨_, sound.pushQuiet journal finished stepOpen step turn tools
    (sound.current.snoc ⟨rfl, rfl⟩ (fun _ => sound.uncommitted uncommitted) nofun)
    (fun open' => ?_) rfl rfl, rfl, rfl⟩
  cases open'

/-- A tool is called; the journal of the Turn has no result of it yet. -/
theorem Open.startTool (itemId : String) (item : ToolItem)
    (unsettled : p.tools.has itemId = false → hasResult p itemId = false) :
    Opened before turn (p.startTool itemId item) := by
  unfold TurnProjector.startTool
  cases listed : p.tools.has itemId with
  | true => exact ⟨closed, body, sound⟩
  | false =>
    simp only [false_eq_true, if_false, sound.stepOpen, if_true]
    obtain ⟨unanswered, never⟩ := no_result sound (unsettled listed)
    -- the Step has its message before the call
    have messaged : ∃ body', Open before turn (if p.messageCommitted then p
          else p.commitMessage [(itemId, p.view.toolCallOf item)]) closed body' ∧
        results body' itemId = 0 ∧
        (if p.messageCommitted then p
          else p.commitMessage [(itemId, p.view.toolCallOf item)]).messageCommitted = true := by
      split
      · next committed => exact ⟨body, sound, unanswered, committed⟩
      · next open' =>
        obtain ⟨entry, opened, -, result⟩ := sound.commit (by simpa using open')
          [(itemId, p.view.toolCallOf item)]
        refine ⟨_, opened, ?_, rfl⟩
        rw [results_snoc, result, unanswered]
        rfl
    obtain ⟨body', sound', unanswered', committed⟩ := messaged
    generalize (if p.messageCommitted then p
      else p.commitMessage [(itemId, p.view.toolCallOf item)]) = q at sound' committed ⊢
    refine ⟨closed, _, sound'.push (append_entries q _ _ _ _) rfl rfl rfl rfl ?_ ?_ ?_ ?_ ?_⟩
    · exact sound'.current.snoc ⟨rfl, rfl⟩ nofun nofun
    · intro open'
      have open' : q.messageCommitted = false := open'
      rw [committed] at open'
      cases open'
    · intro id tool is
      rw [called_snoc, results_snoc]
      simp only [get?_set] at is
      split at is
      · next same =>
        cases is
        exact ⟨same.symm, .inr (by rw [same]; rfl), by rw [same]; simp [unanswered', resultOf]⟩
      · obtain ⟨callId, called, unanswered⟩ := sound'.openTools id tool is
        exact ⟨callId, .inl called, by simp [unanswered, resultOf]⟩
    · intro id is free
      simp only [get?_set] at free
      split at free
      · cases free
      · next other =>
        rw [called_snoc] at is
        rw [results_snoc]
        have call : Called body' id := by
          refine is.resolve_right fun same => other ?_
          simpa [callOf] using same.symm
        simp [sound'.settled id call free, resultOf]
    · intro id is
      have same : itemId = id := by simpa [callOf] using is
      exact .inr (same ▸ never)

theorem Open.replaceCall {itemId : String} {tool : ToolState}
    (is : p.tools.get? itemId = some tool) (item : ToolItem) (call : ToolCall) :
    Opened before turn ((p.setTool itemId { tool with item := item, call := call }).append .toolCall
      (.call p.turn p.step tool.callId call) false none) := by
  obtain ⟨callId, called, unanswered⟩ := sound.openTools itemId tool is
  refine ⟨closed, _, sound.push (append_entries (p.setTool _ _) _ _ _ _) rfl rfl rfl rfl
    (sound.current.snoc ⟨rfl, rfl⟩ nofun nofun) (fun open' => ?_) ?_ ?_ ?_⟩
  · obtain ⟨entry, member, call'⟩ := called
    have none := (sound.uncommitted open' entry member).2
    rw [call'] at none
    cases none
  · intro id other is'
    rw [called_snoc, results_snoc]
    simp only [TurnProjector.append, setTool, get?_set] at is'
    split at is'
    · next same =>
      cases is'
      rw [same]
      exact ⟨callId, .inl called, by simp [unanswered, resultOf]⟩
    · obtain ⟨callId', called', unanswered'⟩ := sound.openTools id other is'
      exact ⟨callId', .inl called', by simp [unanswered', resultOf]⟩
  · intro id is' free
    simp only [TurnProjector.append, setTool, get?_set] at free
    split at free
    · cases free
    · next other =>
      rw [called_snoc] at is'
      have call' : Called body id := by
        refine is'.resolve_right fun same => other ?_
        rw [callId] at same
        simpa [callOf] using same.symm
      rw [results_snoc]
      simp [sound.settled id call' free, resultOf]
  · intro id is'
    have same : tool.callId = id := by simpa [callOf] using is'
    exact .inl (same ▸ callId ▸ called)

/-- The result of an open tool comes in the Step of its call. -/
theorem Open.settleTool (itemId : String) (item : ToolItem)
    (outcome : HostItemOutcome) : Opened before turn (p.settleTool itemId item outcome) := by
  unfold TurnProjector.settleTool
  split
  · exact ⟨closed, body, sound⟩
  · next tool is =>
    obtain ⟨callId, called, unanswered⟩ := sound.openTools itemId tool is
    refine ⟨closed, _, sound.push (append_entries { p with tools := _ } _ _ _ _) rfl rfl rfl rfl
      (sound.current.snoc ⟨rfl, rfl⟩ (by rintro ⟨⟩) ?_) (fun open' => ⟨open', rfl, rfl⟩) ?_ ?_ ?_⟩
    · intro id result
      have same : tool.callId = id := by simpa [resultOf] using result
      exact same ▸ callId ▸ called
    · intro id other is'
      rw [called_snoc, results_snoc]
      simp only [TurnProjector.append, get?_delete] at is'
      split at is'
      · cases is'
      · next apart =>
        obtain ⟨callId', called', unanswered'⟩ := sound.openTools id other is'
        refine ⟨callId', .inl called', ?_⟩
        rw [unanswered', callId]
        simp [resultOf, Ne.symm apart]
    · intro id is' free
      rw [called_snoc] at is'
      have call' : Called body id := is'.resolve_right (by rintro ⟨⟩)
      rw [results_snoc, callId]
      simp only [TurnProjector.append, get?_delete] at free
      by_cases same : id = itemId
      · rw [same, unanswered]
        simp [resultOf]
      · rw [if_neg same] at free
        rw [sound.settled id call' free]
        simp [resultOf, Ne.symm same]
    · rintro _ ⟨⟩

end Steps

section Calls
variable {p p' : TurnProjector Result} {before : List (Entry Result)} {turn : Nat}
  {closed : List (List (Entry Result))} {body : List (Entry Result)}

theorem Open.setTool (sound : Open before turn p closed body) {itemId : String} {tool tool' : ToolState}
    (is : p.tools.get? itemId = some tool) (same : tool'.callId = tool.callId) :
    Opened before turn (p.setTool itemId tool') := by
  obtain ⟨turnIs, running, stepOpen, step, shape, past, current, uncommitted, openTools, settled,
    apart⟩ := sound
  refine ⟨closed, body, turnIs, running, stepOpen, step, shape, past, current, uncommitted,
    fun id other is' => ?_, fun id called free => ?_, apart⟩
  · simp only [TurnProjector.setTool, get?_set] at is'
    split at is'
    · next eq =>
      cases is'
      rw [eq, same]
      exact openTools itemId tool is
    · exact openTools id other is'
  · simp only [TurnProjector.setTool, get?_set] at free
    split at free
    · cases free
    · exact settled id called free

theorem Open.seen (sound : Open before turn p closed body) (kind : BlockKind) (itemId : String) :
    Open before turn (p.seen kind itemId) closed body :=
  sound.frame (seen_same p kind itemId)

/-- Text of an Item and input of the user come when no tool is open, and no tool is called whose
result the Turn already has. -/
def tidy (p : TurnProjector Result) : Call → Bool
  | .itemStarted (.narration _ _ text) => text = [] || p.tools.entries.isEmpty
  | .itemUpdated itemId (.textAppend text) =>
    text = [] || (p.narration itemId).isNone || p.tools.entries.isEmpty
  | .itemUpdated _ _ => true
  | .itemCompleted (.narration kind itemId final) _ =>
    remainder ((((p.seen kind itemId).narration itemId).map (·.text)).getD []) final = [] ||
      p.tools.entries.isEmpty
  | .itemStarted (.tool itemId _) | .itemCompleted (.tool itemId _) _ =>
    p.tools.has itemId || !hasResult p itemId
  | .steer _ _ => p.tools.entries.isEmpty
  | .finish _ _ => true

theorem free_of_isEmpty (empty : p.tools.entries.isEmpty = true) (id : String) : p.tools.get? id = none := by
  simp only [OrderedMap.get?, isEmpty_iff.mp empty, lookup_nil]

section
variable (sound : Open before turn p closed body)
include sound

theorem Open.itemUpdated (itemId : String)
    (update : HostItemUpdate) (allowed : tidy p (.itemUpdated itemId update) = true) :
    Opened before turn (p.itemUpdated itemId update) := by
  have same : Opened before turn p := ⟨closed, body, sound⟩
  unfold TurnProjector.itemUpdated
  rw [if_neg (by simp [sound.running])]
  split
  · next seen =>
    cases update with
    | textAppend text =>
      refine sound.appendNarration itemId text ?_
      simp only [tidy, or_eq_true, decide_eq_true_eq, isNone_iff_eq_none] at allowed
      rcases allowed with (empty | unseen) | free
      · exact .inl empty
      · rw [unseen] at seen
        cases seen
      · exact .inr (free_of_isEmpty free)
    | outputAppend text => exact same
    | outputReplace parts => exact same
    | fileChangesReplace changes => exact same
    | subagentsReplace subagents => exact same
  · split
    · exact ⟨closed, body, sound.frame ⟨rfl, rfl, rfl, rfl, rfl, rfl, rfl, rfl⟩⟩
    · exact same
    · next tool _ is => exact sound.setTool is rfl
    · next tool _ is => exact sound.setTool is rfl
    · next tool changes is =>
      split
      · exact sound.replaceCall is _ _
      · exact same
    · next tool subagents is =>
      split
      · exact sound.setTool is rfl
      · exact same
    · exact same

theorem Open.itemStarted (item : HostItem)
    (allowed : tidy p (.itemStarted item) = true) : Opened before turn (p.itemStarted item) := by
  unfold TurnProjector.itemStarted
  rw [if_neg (by simp [sound.running])]
  cases item with
  | narration kind itemId text =>
    simp only [tidy, or_eq_true, decide_eq_true_eq] at allowed
    refine (sound.seen kind itemId).appendNarration itemId text (allowed.imp_right fun free => ?_)
    rw [(seen_same p kind itemId).tools]
    exact free_of_isEmpty free
  | tool itemId item =>
    refine sound.startTool itemId item fun closed => ?_
    simpa [tidy, closed] using allowed

theorem Open.itemCompleted (item : HostItem)
    (outcome : HostItemOutcome) (allowed : tidy p (.itemCompleted item outcome) = true) :
    Opened before turn (p.itemCompleted item outcome) := by
  unfold TurnProjector.itemCompleted
  rw [if_neg (by simp [sound.running])]
  cases item with
  | narration kind itemId final =>
    simp only [tidy, or_eq_true, decide_eq_true_eq] at allowed
    have narrated := (sound.seen kind itemId).appendNarration itemId
      (remainder ((((p.seen kind itemId).narration itemId).map (·.text)).getD []) final)
      (allowed.imp_right fun free => by
        rw [(seen_same p kind itemId).tools]
        exact free_of_isEmpty free)
    obtain ⟨closed, body, sound⟩ := narrated
    simp only [completeNarration]
    split
    · exact ⟨closed, body, sound.frame (endBlock_same _ _)⟩
    · exact ⟨closed, body, sound⟩
  | tool itemId item =>
    obtain ⟨closed, body, started⟩ := sound.startTool itemId item fun closed => by
      simpa [tidy, closed] using allowed
    exact started.settleTool itemId item outcome

end

/-- The tools that are still open are settled, one after the other. -/
theorem settleTools_open (tools : List ToolState) (sound : Opened before turn p)
    (distinct : (tools.map (·.callId)).Nodup)
    (isOpen : ∀ tool ∈ tools, p.tools.get? tool.callId = some tool) (outcome : TurnOutcome) :
    Opened before turn (tools.foldl (fun p tool =>
      p.itemCompleted (.tool tool.callId tool.item) (unsettledOutcome outcome)) p) ∧
    ∀ id, (tools.foldl (fun p tool =>
      p.itemCompleted (.tool tool.callId tool.item) (unsettledOutcome outcome)) p).tools.get? id =
        if id ∈ tools.map (·.callId) then none else p.tools.get? id := by
  induction tools generalizing p with
  | nil => exact ⟨sound, fun id => by simp⟩
  | cons tool rest ih =>
    obtain ⟨closed, body, opened⟩ := sound
    have is := isOpen tool (mem_cons_self ..)
    have listed : p.tools.has tool.callId = true := by simp [OrderedMap.has, is]
    have settled : p.itemCompleted (.tool tool.callId tool.item) (unsettledOutcome outcome) =
        p.settleTool tool.callId tool.item (unsettledOutcome outcome) := by
      simp [TurnProjector.itemCompleted, TurnProjector.startTool, opened.running, listed]
    have tools : (p.settleTool tool.callId tool.item (unsettledOutcome outcome)).tools =
        p.tools.delete tool.callId := by
      simp [TurnProjector.settleTool, is, TurnProjector.append]
    have distinct := nodup_cons.mp distinct
    have next := ih (opened.settleTool tool.callId tool.item (unsettledOutcome outcome)) distinct.2 (by
        intro other member
        rw [tools, get?_delete_of_ne, isOpen other (mem_cons_of_mem _ member)]
        rintro same
        exact distinct.1 (mem_map.mpr ⟨other, member, same⟩))
    rw [foldl_cons, settled]
    refine ⟨next.1, fun id => ?_⟩
    rw [next.2 id, tools, get?_delete]
    by_cases eq : id = tool.callId <;> simp [eq]

theorem Open.settleTools (sound : Open before turn p closed body) (outcome : TurnOutcome) :
    Opened before turn (p.settleTools outcome) ∧ ∀ id, (p.settleTools outcome).tools.get? id = none := by
  have keyed : ∀ entry ∈ p.tools.entries, entry.2.callId = entry.1 := fun entry member =>
    (sound.openTools entry.1 entry.2 ((OrderedMap.mem_entries_iff _ _ _).mp member)).1
  have keys : p.tools.values.map (·.callId) = p.tools.keys := by
    simp only [OrderedMap.values, OrderedMap.keys, List.map_map]
    exact List.map_congr_left keyed
  obtain ⟨opened, left⟩ := settleTools_open (p := p) p.tools.values ⟨closed, body, sound⟩
    (by rw [keys]; exact p.tools.keys_eq_nodup)
    (fun tool member => by
      obtain ⟨id, is⟩ := (OrderedMap.mem_values_iff _ _).mp member
      rw [(sound.openTools id tool is).1]
      exact is) outcome
  refine ⟨opened, fun id => (left id).trans ?_⟩
  rw [keys]
  split
  · rfl
  · next absent =>
    cases is : p.tools.get? id with
    | none => rfl
    | some tool => exact absurd ((OrderedMap.mem_keys_iff _ _).mpr ⟨tool, is⟩) absent

end Calls

section Turns
variable {p : TurnProjector Result} {before : List (Entry Result)} {turn : Nat} {id : String}

theorem results_wire (step : List (Entry Result) × Nat) :
    results (wire turn step) id = results step.1 id := by
  simp [results, wire, resultOf]

section Steps
variable {steps : List (List (Entry Result) × Nat)}

section
variable (known : ∀ step ∈ steps, 0 < results step.1 id → Called step.1 id)
include known

theorem results_none
    (never : ∀ step ∈ steps, ¬ Called step.1 id) :
    results (steps.flatMap (wire turn)) id = 0 := by
  induction steps with
  | nil => rfl
  | cons step rest ih =>
    rw [flatMap_cons, results_append, results_wire, ih
      (fun other member => known other (mem_cons_of_mem _ member))
      (fun other member => never other (mem_cons_of_mem _ member))]
    by_contra positive
    exact never step (mem_cons_self ..) (known step (mem_cons_self ..) (by omega))

/-- A tool that one Step calls has its results there. -/
theorem results_called
    (apart : steps.Pairwise fun earlier later => Called earlier.1 id → ¬ Called later.1 id)
    {step : List (Entry Result) × Nat} (member : step ∈ steps) (call : Called step.1 id) :
    results (steps.flatMap (wire turn)) id = results step.1 id := by
  induction steps with
  | nil => cases member
  | cons head rest ih =>
    rw [flatMap_cons, results_append, results_wire]
    have apart := pairwise_cons.mp apart
    have known' := fun other (inside : other ∈ rest) => known other (mem_cons_of_mem _ inside)
    rcases mem_cons.mp member with rfl | later
    · rw [results_none known' fun other inside => apart.1 other inside call, Nat.add_zero]
    · rw [ih known' apart.2 later]
      have silent : results head.1 id = 0 := by
        by_contra positive
        exact apart.1 step later (known head (mem_cons_self ..) (by omega)) call
      rw [silent, Nat.zero_add]

end

end Steps

theorem Opened.finish (sound : Opened before turn p) (outcome : TurnOutcome)
    (finalAnswer : Option (Option String)) :
    ∃ journal, entries (p.finish outcome finalAnswer) = before ++ journal ∧
      Grammar turn journal ∧ (p.finish outcome finalAnswer).finished = true := by
  obtain ⟨closed, body, opened⟩ := sound
  obtain ⟨⟨closed', body', settled⟩, free⟩ := opened.settleTools outcome
  obtain ⟨last, closes⟩ := settled.closeStep free
  have turn' := (closeStep_spec _ settled.stepOpen).2.2.2.2.2.trans settled.turnIs
  rw [settled.turnIs] at closes
  unfold TurnProjector.finish
  rw [if_neg (by simp [opened.running])]
  generalize (p.settleTools outcome).closeStep = q at closes turn' ⊢
  generalize closed' ++ [last] = bodies at closes
  refine ⟨(.turnStart, .turn turn) :: (bodies.zipIdx 1).flatMap (wire turn) ++
    [(.turnEnd, .turnEnd turn (q.endReason outcome) (finalAnswer.map fun answer =>
      answer.bind fun itemId => (q.narration itemId).bind (·.step)))],
    (append_entries { q with finished := true } _ _ _ _).trans ?_, ⟨bodies, _, _, rfl, ?_⟩, rfl⟩
  · have shape : entries { q with finished := true } = _ := closes.shape
    rw [shape, turn', append_assoc]
  · intro step member
    obtain ⟨whole, answered⟩ := closes.past step member
    refine ⟨whole, fun id call => ⟨answered id call, ?_⟩⟩
    have apart : (bodies.zipIdx 1).Pairwise fun earlier later =>
        Called earlier.1 id → ¬ Called later.1 id := by
      have fsts := closes.apart
      rw [← zipIdx_map_fst 1 bodies, pairwise_map] at fsts
      exact fsts.imp fun distinct => distinct id
    have steps : results ((bodies.zipIdx 1).flatMap (wire turn)) id = results step.1 id :=
      results_called
      (fun other inside => (closes.past other inside).1.known id) apart member call
    rw [results_append, ← singleton_append, results_append, steps, answered id call]
    rfl

end Turns

section Runs
variable {p : TurnProjector Result} {before : List (Entry Result)} {turn : Nat} {calls : List Call}

/-- The runs whose calls are tidy until the Turn has ended. -/
def TidyRun (start : TurnProjector Result) (calls : List Call) (p : TurnProjector Result) : Prop :=
  Run (fun p call p' => (p.finished || tidy p call) = true ∧ p.call call = p') start calls p

/-- The Turn has ended with its journal. -/
def Ended (before : List (Entry Result)) (turn : Nat) (p : TurnProjector Result) : Prop :=
  ∃ journal, entries p = before ++ journal ∧ Grammar turn journal ∧ p.finished = true

theorem call_finished (ended : p.finished = true) (call : Call) : p.call call = p := by
  cases call <;> simp [TurnProjector.call, itemStarted, itemUpdated, itemCompleted, steer,
    TurnProjector.finish, ended]

theorem Opened.call (sound : Opened before turn p) {call : Call} (allowed : tidy p call = true) :
    Opened before turn (p.call call) ∨ Ended before turn (p.call call) := by
  cases call with
  | finish outcome finalAnswer => exact .inr (sound.finish outcome finalAnswer)
  | itemStarted item =>
    obtain ⟨closed, body, opened⟩ := sound
    exact .inl (opened.itemStarted item allowed)
  | itemUpdated itemId update =>
    obtain ⟨closed, body, opened⟩ := sound
    exact .inl (opened.itemUpdated itemId update allowed)
  | itemCompleted item outcome =>
    obtain ⟨closed, body, opened⟩ := sound
    exact .inl (opened.itemCompleted item outcome allowed)
  | steer content requestId =>
    obtain ⟨closed, body, opened⟩ := sound
    exact .inl (opened.steer (free_of_isEmpty allowed) content requestId)

theorem start_opened (events : List (WireEvent (EventData Result)))
    (sequenceStart attemptCounter turn : Nat) (live : Bool) (view : ToolView Result)
    (beginning : Beginning) :
    Opened (entries (new events sequenceStart attemptCounter turn live view)) turn
      ((new events sequenceStart attemptCounter turn live view).start beginning) := by
  generalize is : new events sequenceStart attemptCounter turn live view = p
  have free : ∀ id, p.tools.get? id = none := fun id => by simp [← is, new]
  have started : Open (entries p) turn p.startTurn [] [] := by
    refine Closed.openStep (p := p.append .turnStart (.turn p.turn) false none)
      ⟨?_, by rintro _ ⟨⟩, List.Pairwise.nil⟩ (by rw [← is]; rfl) (by rw [← is]; rfl) (by rw [← is]; rfl) free
    rw [append_entries]
    rfl
  cases beginning with
  | user content requestId => exact started.userMessage content requestId
  | autonomous content =>
    unfold TurnProjector.start beginAutonomous
    simp only
    split
    · exact started.userMessage content none
    · exact ⟨[], [], started⟩

theorem run_opened {start : TurnProjector Result} (sound : Opened before turn start)
    (run : TidyRun start calls p) : Opened before turn p ∨ Ended before turn p := by
  induction run with
  | nil => exact .inl sound
  | snoc _ last ih =>
    obtain ⟨allowed, rfl⟩ := last
    rcases ih with opened | ended
    · obtain ⟨closed, body, isOpen⟩ := id opened
      simp only [isOpen.running, Bool.false_or] at allowed
      exact opened.call allowed
    · refine .inr ?_
      obtain ⟨journal, is, grammar, finished⟩ := ended
      rw [call_finished finished]
      exact ⟨journal, is, grammar, finished⟩

/-- A Turn whose text and input come when no tool is open, and whose tools are not called again
after their result, has a journal with the grammar once it is finished, and nothing is appended
to it. -/
theorem journal_grammar (events : List (WireEvent (EventData Result)))
    (sequenceStart attemptCounter turn : Nat) (live : Bool) (view : ToolView Result)
    (beginning : Beginning) (calls : List Call) (p : TurnProjector Result)
    (run : TidyRun ((new events sequenceStart attemptCounter turn live view).start beginning) calls p)
    (outcome : TurnOutcome) (finalAnswer : Option (Option String)) :
    ∃ journal, Grammar turn journal ∧ ∀ later : List Call,
      entries (later.foldl TurnProjector.call (p.finish outcome finalAnswer)) =
        (events.map fun event => (event.type, event.data)) ++ journal := by
  have opened := start_opened events sequenceStart attemptCounter turn live view beginning
  have ended : Ended (events.map fun event => (event.type, event.data)) turn
      (p.finish outcome finalAnswer) := by
    rcases run_opened opened run with opened | ended
    · exact opened.finish outcome finalAnswer
    · obtain ⟨journal, is, grammar, finished⟩ := ended
      have same : p.finish outcome finalAnswer = p := call_finished finished (.finish ..)
      rw [same]
      exact ⟨journal, is, grammar, finished⟩
  obtain ⟨journal, is, grammar, finished⟩ := ended
  refine ⟨journal, grammar, fun later => ?_⟩
  have still : later.foldl TurnProjector.call (p.finish outcome finalAnswer) =
      p.finish outcome finalAnswer := by
    induction later with
    | nil => rfl
    | cons call rest ih => rw [foldl_cons, call_finished finished, ih]
  rw [still, is]

end Runs

/-- Tools that are shown by their names alone. -/
def plainView : ToolView Unit := ⟨fun _ => ⟨"tool", "{}"⟩, fun _ _ _ => ()⟩

def sampleStart : TurnProjector Unit := (new [] 0 0 1 true plainView).start (.user [] none)

/-- Narration, two tools that are settled, and narration. -/
def sampleCalls : List Call :=
  [.itemStarted (.narration .text "m1" [76]), .itemStarted (.tool "c1" .contextCompaction),
    .itemStarted (.tool "c2" .contextCompaction),
    .itemCompleted (.tool "c2" .contextCompaction) .succeeded,
    .itemCompleted (.tool "c1" .contextCompaction) .succeeded,
    .itemStarted (.narration .text "m2" [79])]

/-- Type and Step of each entry. -/
def outline (p : TurnProjector Result) : List (EventType × Option Nat) :=
  (entries p).map fun entry => (entry.1, match entry.2 with
    | .step _ step | .assistant _ step _ _ | .call _ step _ _ | .result _ step _ _ _ => some step
    | _ => none)

/-- The calls of a tidy run. -/
def tidyCall (p : TurnProjector Result) (call : Call) : Option (TurnProjector Result) :=
  if p.finished || tidy p call then some (p.call call) else none

theorem tidyRun_of_foldlM {start p : TurnProjector Result} {calls : List Call}
    (ran : calls.foldlM tidyCall start = some p) : TidyRun start calls p :=
  (Run.of_foldlM ran).mono fun p call p' calls => by
    unfold tidyCall at calls
    split at calls
    · next allowed => exact ⟨allowed, some_inj.mp calls⟩
    · cases calls

def sampleOutline : List (EventType × Option Nat) :=
  [(.turnStart, none), (.stepStart, some 1), (.userMessage, none), (.assistantMessage, some 1),
    (.toolCall, some 1), (.toolCall, some 1), (.toolResult, some 1), (.toolResult, some 1),
    (.stepEnd, some 1), (.stepStart, some 2), (.assistantMessage, some 2), (.stepEnd, some 2),
    (.turnEnd, none)]

theorem journal_grammar_sample : ∃ p : TurnProjector Unit, Grammar 1 (entries (p.finish .succeeded none)) ∧
      outline (p.finish .succeeded none) = sampleOutline := by
  have ran : (sampleCalls.foldlM tidyCall sampleStart).isSome := by decide
  obtain ⟨p, reached⟩ := isSome_iff_exists.mp ran
  have seen : (sampleCalls.foldlM tidyCall sampleStart).map
      (fun p => outline (p.finish .succeeded none)) = some sampleOutline := by decide
  rw [reached, map_some, some_inj] at seen
  obtain ⟨journal, grammar, same⟩ := journal_grammar [] 0 0 1 true plainView (.user [] none)
    sampleCalls p (tidyRun_of_foldlM reached) .succeeded none
  refine ⟨p, ?_, seen⟩
  rw [show entries (p.finish .succeeded none) = journal from same []]
  exact grammar

/-- Text comes while a tool runs: the result stands in the next Step. A tool is completed twice:
it has two results. -/
theorem late_result_leaves_step : outline (([.itemStarted (.tool "c1" .contextCompaction),
        .itemStarted (.narration .text "m1" [76]),
        .itemCompleted (.tool "c1" .contextCompaction) .succeeded,
        .finish .succeeded none] : List Call).foldl TurnProjector.call sampleStart) =
      [(.turnStart, none), (.stepStart, some 1), (.userMessage, none),
        (.assistantMessage, some 1), (.toolCall, some 1), (.stepEnd, some 1),
        (.stepStart, some 2), (.toolResult, some 2), (.assistantMessage, some 2),
        (.stepEnd, some 2), (.turnEnd, none)] ∧
    results (entries (([.itemStarted (.tool "c1" .contextCompaction),
        .itemCompleted (.tool "c1" .contextCompaction) .succeeded,
        .itemCompleted (.tool "c1" .contextCompaction) .succeeded,
        .finish .succeeded none] : List Call).foldl TurnProjector.call sampleStart)) "c1" = 2 := by
  decide

end CodexHost.Guarantees.JournalGrammar
